import BodyCheck.Class.Registry
import BodyCheck.Ty.Conversion
import Mathlib.Data.Set.Defs

/-!
# Hierarchies of classes

A class has its superclasses by definition, but a class is taken for a subclass of another by name.
The two agree where different classes have different names.

## Main definitions

* `ClassDef.chain` — a class and its superclasses.
* `ClassDef.Coherent` — classes that are told apart by their names.

## Main statements

* `ClassDef.member?_eq_findSome?` — members are looked up along the chain.
* `ClassDef.Coherent.mem_chain_iff` — among coherent classes the subclasses of a class are those
  whose chains it is on, so that being a subclass is a partial order.
* `ClassDef.members_found_on_subclass` — a subclass has the members of the class on its chain that
  it is a subclass by.
* `ClassDef.namesake_without_member` — it need not have those of another class of the same name.

## Design notes

A chain ends in the chains of all classes on it.  This one fact, `chain_suffix_of_mem`, gives that
subclasses of subclasses are subclasses, and that no class is on the chain of one of its proper
superclasses.
-/

namespace BodyCheck.ClassDef

/-! ## Chains -/

/-- The class and its superclasses, nearest first. -/
def chain : ClassDef → List ClassDef
  | root name members => [root name members]
  | derived name members parent => derived name members parent :: parent.chain

variable {c d x : ClassDef}

/-- A class is the first of its own chain. -/
theorem mem_chain_self (c : ClassDef) : c ∈ c.chain := by
  cases c <;> exact List.mem_cons_self

/-- The names along a chain are those of the class and its ancestors. -/
theorem map_name_chain (c : ClassDef) : c.chain.map name = c.name :: c.ancestors := by
  induction c with
  | root => rfl
  | derived className members parent ih =>
    rw [chain, List.map_cons, ih]
    rfl

/-- The chain of a class ends in the chains of its superclasses. -/
theorem chain_suffix_of_mem (h : x ∈ c.chain) : x.chain <:+ c.chain := by
  induction c with
  | root className members =>
    obtain rfl := List.mem_singleton.mp h
    exact List.suffix_rfl
  | derived className members parent ih =>
    rcases List.mem_cons.mp h with rfl | h
    · exact List.suffix_rfl
    · exact (ih h).trans (List.suffix_cons ..)

/-- No two classes are superclasses of each other. -/
theorem eq_of_mem_chain (hc : c ∈ d.chain) (hd : d ∈ c.chain) : c = d := by
  have same : c.chain = d.chain :=
    (chain_suffix_of_mem hc).eq_of_length_le (chain_suffix_of_mem hd).length_le
  cases c <;> cases d <;> exact (List.cons.inj same).1

/-! ## Subclasses -/

/-- Being a subclass is a matter of names: some class on the chain carries the name. -/
theorem lineage_isSubclassOf_iff {l : Lineage} :
    c.lineage.isSubclassOf l = true ↔ ∃ x ∈ c.chain, x.name = l.name := by
  rw [← List.mem_map, map_name_chain, List.mem_cons, Lineage.isSubclassOf_iff]
  rfl

/-- A class is below another just if one of its chain has the other's name. -/
theorem isSubclassOf_iff : c.isSubclassOf d = true ↔ ∃ x ∈ c.chain, x.name = d.name := by
  rw [isSubclassOf_eq]
  exact lineage_isSubclassOf_iff

/-- Classes that are told apart by their names, as are their superclasses. -/
def Coherent (classes : Set ClassDef) : Prop :=
  ∀ c ∈ classes, ∀ d ∈ classes, ∀ x ∈ c.chain, ∀ y ∈ d.chain, x.name = y.name → x = y

namespace Coherent

variable {classes : Set ClassDef}

/-- Among coherent classes a class is a subclass of those on its chain. -/
theorem mem_chain_iff (coherent : Coherent classes) (hc : c ∈ classes) (hd : d ∈ classes) :
    c.isSubclassOf d = true ↔ d ∈ c.chain := by
  rw [isSubclassOf_iff]
  constructor
  · rintro ⟨x, mem, named⟩
    exact coherent c hc d hd x mem d d.mem_chain_self named ▸ mem
  · intro mem
    exact ⟨d, mem, rfl⟩

/-- In coherent classes a class is below everything that one of its superclasses is below. -/
theorem isSubclassOf_trans (coherent : Coherent classes) (hc : c ∈ classes) (hd : d ∈ classes)
    {l : Lineage} (hcd : c.lineage.isSubclassOf d.lineage = true)
    (hdl : d.lineage.isSubclassOf l = true) : c.lineage.isSubclassOf l = true := by
  rw [← isSubclassOf_eq] at hcd
  obtain ⟨x, mem, named⟩ := lineage_isSubclassOf_iff.mp hdl
  have onChain : x ∈ c.chain :=
    (chain_suffix_of_mem ((coherent.mem_chain_iff hc hd).mp hcd)).subset mem
  exact lineage_isSubclassOf_iff.mpr ⟨x, onChain, named⟩

/-- Classes that are below each other are the same, if they are coherent. -/
theorem isSubclassOf_antisymm (coherent : Coherent classes) (hc : c ∈ classes) (hd : d ∈ classes)
    (hcd : c.isSubclassOf d = true) (hdc : d.isSubclassOf c = true) : c = d :=
  eq_of_mem_chain ((coherent.mem_chain_iff hd hc).mp hdc) ((coherent.mem_chain_iff hc hd).mp hcd)

end Coherent

/-! ## Members -/

/-- A member is looked up along the chain. -/
theorem member?_eq_findSome? (c : ClassDef) (name : String) :
    c.member? name = c.chain.findSome? (·.ownMember? name) := by
  induction c with
  | root className members =>
    rw [member?, chain, List.findSome?_singleton]
    cases (root className members).ownMember? name <;> rfl
  | derived className members parent ih =>
    rw [member?, chain, List.findSome?_cons, ← ih]
    cases (derived className members parent).ownMember? name <;> rfl

/-- A class has the members of the classes on its chain, though maybe with other types. -/
theorem isSome_member?_of_mem_chain (h : x ∈ c.chain) {name : String}
    (found : (x.member? name).isSome = true) : (c.member? name).isSome = true := by
  rw [member?_eq_findSome?, List.findSome?_isSome_iff] at found ⊢
  obtain ⟨y, mem, own⟩ := found
  exact ⟨y, (chain_suffix_of_mem h).subset mem, own⟩

/-- **The members of a subclass.**  The instances of a subclass stand for those of its superclass.
It is a subclass by a class on its chain that carries the name of the superclass, and all members
found on that class are found on the subclass.  So are those of the superclass itself, if that is on
the chain, as it always is where names tell classes apart. -/
theorem members_found_on_subclass (h : c.isSubclassOf d = true) :
    c.instanceTy.convertsTo d.instanceTy = true ∧
    (∃ x ∈ c.chain, x.name = d.name ∧
      ∀ name, (x.member? name).isSome = true → (c.member? name).isSome = true) ∧
    (d ∈ c.chain → ∀ name, (d.member? name).isSome = true → (c.member? name).isSome = true) ∧
    ((∀ x ∈ c.chain, x.name = d.name → x = d) → d ∈ c.chain) := by
  obtain ⟨x, mem, named⟩ := isSubclassOf_iff.mp h
  refine ⟨?_, ⟨x, mem, named, fun name => isSome_member?_of_mem_chain mem⟩,
    fun onChain name => isSome_member?_of_mem_chain onChain, fun told => told x mem named ▸ mem⟩
  show c.lineage.isSubclassOf d.lineage = true
  rw [← isSubclassOf_eq]
  exact h

/-- A class finds a member of the superclass of its superclass, which the superclass hides. -/
theorem members_found_on_subclass_of_leaf :
    let base : ClassDef := .root "Base" [⟨"size", .field .int⟩, ⟨"name", .field .string⟩]
    let middle : ClassDef := .derived "Middle" [⟨"size", .function []⟩] base
    let leaf : ClassDef := .derived "Leaf" [] middle
    leaf.isSubclassOf base = true ∧ base ∈ leaf.chain ∧
      (base.member? "size").isSome = true ∧ (leaf.member? "size").isSome = true ∧
      leaf.member? "size" ≠ base.member? "size" ∧ (leaf.member? "name").isSome = true := by
  intro base middle leaf
  have sub : leaf.isSubclassOf base = true := by decide +kernel
  have onChain : base ∈ leaf.chain := by decide +kernel
  have found := (members_found_on_subclass sub).2.2.1 onChain
  exact ⟨sub, onChain, by decide +kernel, found "size" (by decide +kernel), by decide +kernel,
    found "name" (by decide +kernel)⟩

/-- Of two classes of the same name from different imports each is a subclass of the other, and the
instances of one stand for those of the other, although it does not have the other's members. -/
theorem namesake_without_member :
    let plain : ClassDef := .root "A" []
    let sized : ClassDef := .root "A" [⟨"size", .field .int⟩]
    let classes := (Registry.empty.registerImported "p" plain).registerImported "q" sized
    classes.lookup (some "p") "A" = some plain ∧ classes.lookup (some "q") "A" = some sized ∧
      plain.isSubclassOf sized = true ∧ plain.instanceTy.convertsTo sized.instanceTy = true ∧
      (sized.member? "size").isSome = true ∧ plain.member? "size" = none := by
  decide +kernel

end BodyCheck.ClassDef
