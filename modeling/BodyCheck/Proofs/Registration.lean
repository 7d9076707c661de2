import BodyCheck.Class.Registry
import Mathlib.Data.List.Induction

/-!
# Registrations

A registry answers with the class that was registered last under the text that is looked up.  The
text of an imported class is made of the alias of its import and of its name with a dot between
them, and such a text can come about in more than one way, since aliases and names are free to
contain dots themselves.

## Main definitions

* `Registration` — a class that is made known, with the alias of its import if it has one.
* `Registry.ofRegistrations` — the registry after several registrations.
* `Registry.IsLatest` — the class of the last registration with a given property.
* `Registry.Continues` — a name that brings along the end of the alias of another.

## Main statements

* `Registry.key_eq_key_iff` — when two classes are kept under the same text.
* `Registry.latest_registration_found` — what a registry answers after any registrations.
* `Registry.dotted_name_found` — a class that is found in an import that it does not belong to.

## Design notes

Everything about texts is in `key_eq_key_iff`.  The induction over the registrations knows only
that a registration replaces what is kept under its own text.
-/

namespace BodyCheck

/-- A class that is made known: as one of the unit itself, or under the alias of its import. -/
structure Registration where
  importAlias : Option String
  cls : ClassDef
deriving DecidableEq, Repr

namespace Registration

/-- Makes the class known to a registry. -/
def perform (registration : Registration) (registry : Registry) : Registry :=
  match registration.importAlias with
  | none => registry.register registration.cls
  | some importAlias => registry.registerImported importAlias registration.cls

/-- The text that the class is kept under. -/
def key (registration : Registration) : String :=
  Registry.key registration.importAlias registration.cls.name

/-- The registration is that of a class of this name, in the import with this alias or in the unit
itself. -/
def IsOf (importAlias : Option String) (name : String) (registration : Registration) : Prop :=
  registration.importAlias = importAlias ∧ registration.cls.name = name

instance (importAlias : Option String) (name : String) :
    DecidablePred (IsOf importAlias name) :=
  fun _ => inferInstanceAs (Decidable (_ ∧ _))

/-- A registration changes what is found under its own key and nothing else. -/
@[simp] theorem find?_perform (registration : Registration) (registry : Registry) (k : String) :
    (registration.perform registry).find? k
      = if k = registration.key then some registration.cls else registry.find? k := by
  obtain ⟨_ | importAlias, cls⟩ := registration
  · exact Registry.find?_insert ..
  · exact Registry.find?_insert ..

end Registration

/-! ## Texts -/

/-- Two texts with a dot at different places are the same if what is between the two dots belongs
once to the one side and once to the other. -/
theorem dotted_eq_dotted_iff {a b m n : String} :
    a ++ "." ++ n = b ++ "." ++ m ↔
      (a = b ∧ n = m) ∨
      (∃ front, n = front ++ "." ++ m ∧ b = a ++ "." ++ front) ∨
      ∃ front, m = front ++ "." ++ n ∧ a = b ++ "." ++ front := by
  constructor
  · intro same
    have chars : a.toList ++ '.' :: n.toList = b.toList ++ '.' :: m.toList := by
      simpa using congrArg String.toList same
    rcases List.append_eq_append_iff.mp chars with ⟨front, isB, isN⟩ | ⟨front, isA, isM⟩
    · rcases front with _ | ⟨dot, front⟩
      · exact .inl ⟨String.toList_inj.mp (by simpa using isB.symm),
          String.toList_inj.mp (by simpa using isN)⟩
      · obtain ⟨rfl, isN⟩ := List.cons_eq_cons.mp isN
        refine .inr (.inl ⟨String.ofList front, String.toList_inj.mp ?_, String.toList_inj.mp ?_⟩)
        · simpa using isN
        · simpa using isB
    · rcases front with _ | ⟨dot, front⟩
      · exact .inl ⟨String.toList_inj.mp (by simpa using isA),
          String.toList_inj.mp (by simpa using isM.symm)⟩
      · obtain ⟨rfl, isM⟩ := List.cons_eq_cons.mp isM
        refine .inr (.inr ⟨String.ofList front, String.toList_inj.mp ?_, String.toList_inj.mp ?_⟩)
        · simpa using isM
        · simpa using isA
  · rintro (⟨rfl, rfl⟩ | ⟨front, rfl, rfl⟩ | ⟨front, rfl, rfl⟩)
    · rfl
    · simp only [String.append_assoc]
    · simp only [String.append_assoc]

namespace Registry

/-- The second name is the first one behind a dotted front, and the first alias is what the second
class is kept under up to this dot: `N` in the import `a.f`, or in the import `f`, is continued by
`f.N` in the import `a`, or in the unit itself. -/
def Continues (importAlias : Option String) (name : String) (otherAlias : Option String)
    (other : String) : Prop :=
  ∃ front, other = front ++ "." ++ name ∧ importAlias = some (key otherAlias front)

/-- Two classes are kept under the same text just if their names and aliases are the same, or one
of the two names brings along the end of the alias of the other. -/
theorem key_eq_key_iff {a b : Option String} {n m : String} :
    key a n = key b m ↔ (a = b ∧ n = m) ∨ Continues a n b m ∨ Continues b m a n := by
  rcases a with _ | a
  · rcases b with _ | b
    · simp [key, Continues]
    · simp [key, Continues]
  · rcases b with _ | b
    · simp [key, Continues, eq_comm]
    · simp only [key, Continues, dotted_eq_dotted_iff, Option.some.injEq]
      exact or_congr_right or_comm

/-- A name without a dot continues none. -/
theorem not_continues_of_not_mem {a b : Option String} {n m : String} (h : '.' ∉ m.toList) :
    ¬ Continues a n b m := by
  rintro ⟨front, rfl, -⟩
  simp at h

/-! ## Answers -/

/-- The registry after several registrations, one after the other. -/
def ofRegistrations (registrations : List Registration) : Registry :=
  registrations.foldl (fun registry registration => registration.perform registry) empty

/-- The class of the last of the registrations with a property, or none if none has it. -/
def IsLatest (P : Registration → Prop) (registrations : List Registration) :
    Option ClassDef → Prop
  | some cls => ∃ before latest after, registrations = before ++ latest :: after ∧
      P latest ∧ latest.cls = cls ∧ ∀ later ∈ after, ¬ P later
  | none => ∀ registration ∈ registrations, ¬ P registration

namespace IsLatest

variable {P Q : Registration → Prop} {registrations : List Registration}
variable {registration : Registration} {found : Option ClassDef}

/-- A registration of the right kind is the latest when it is made. -/
theorem concat (h : P registration) :
    IsLatest P (registrations ++ [registration]) (some registration.cls) :=
  ⟨registrations, registration, [], rfl, h, rfl, nofun⟩

/-- One of another kind changes nothing. -/
theorem concat_of_not (h : ¬ P registration) (earlier : IsLatest P registrations found) :
    IsLatest P (registrations ++ [registration]) found := by
  rcases found with _ | cls
  · intro r mem
    rcases List.mem_append.mp mem with mem | mem
    · exact earlier r mem
    · rw [List.mem_singleton.mp mem]
      exact h
  · obtain ⟨before, latest, after, rfl, has, isCls, none⟩ := earlier
    refine ⟨before, latest, after ++ [registration], by simp, has, isCls, ?_⟩
    intro r mem
    rcases List.mem_append.mp mem with mem | mem
    · exact none r mem
    · rw [List.mem_singleton.mp mem]
      exact h

/-- Kinds of registrations that agree on all that were made have the same latest one. -/
theorem congr (h : IsLatest P registrations found)
    (same : ∀ registration ∈ registrations, P registration ↔ Q registration) :
    IsLatest Q registrations found := by
  rcases found with _ | cls
  · intro r mem
    exact mt (same r mem).mpr (h r mem)
  · obtain ⟨before, latest, after, rfl, has, isCls, none⟩ := h
    refine ⟨before, latest, after, rfl, (same latest (by simp)).mp has, isCls, ?_⟩
    intro r mem
    exact mt (same r (by simp [mem])).mpr (none r mem)

end IsLatest

/-- Registrations are made one behind the other. -/
theorem ofRegistrations_concat (registrations : List Registration) (registration : Registration) :
    ofRegistrations (registrations ++ [registration])
      = registration.perform (ofRegistrations registrations) := by
  simp [ofRegistrations]

/-- A text is answered with the class that was registered last under it. -/
theorem isLatest_find? (registrations : List Registration) (k : String) :
    IsLatest (fun registration => registration.key = k) registrations
      ((ofRegistrations registrations).find? k) := by
  induction registrations using List.reverseRecOn with
  | nil => exact nofun
  | append_singleton registrations registration ih =>
    rw [ofRegistrations_concat, Registration.find?_perform]
    split
    · next same => exact .concat same.symm
    · next other => exact .concat_of_not (Ne.symm other) ih

/-- Registrations under other texts can be left out. -/
theorem find?_filter (registrations : List Registration) {p : Registration → Bool} {k : String}
    (keeps : ∀ registration ∈ registrations, registration.key = k → p registration = true) :
    (ofRegistrations (registrations.filter p)).find? k
      = (ofRegistrations registrations).find? k := by
  induction registrations using List.reverseRecOn with
  | nil => rfl
  | append_singleton registrations registration ih =>
    have earlier := ih fun r mem => keeps r (List.mem_append_left _ mem)
    rw [List.filter_append, ofRegistrations_concat, Registration.find?_perform]
    by_cases kept : p registration = true
    · rw [List.filter_cons_of_pos kept, List.filter_nil, ofRegistrations_concat,
        Registration.find?_perform, earlier]
    · have other : k ≠ registration.key := fun same => kept (keeps _ (by simp) same.symm)
      rw [List.filter_cons_of_neg kept, List.filter_nil, List.append_nil, earlier, if_neg other]

/-- **Registrations.**  A class is answered that was registered last under the text looked up, and
two classes share a text just if they agree in alias and name or one name continues the other.
Unless the name looked up continues a registered one, or is continued by one, the answer is the
class of this alias and name that was registered last, and all registrations of others can be left
out; and if neither the name looked up nor any registered name contains a dot, none of them
continues another. -/
theorem latest_registration_found (registrations : List Registration)
    (importAlias : Option String) (name : String) :
    let found := (ofRegistrations registrations).lookup importAlias name
    let confused (r : Registration) : Prop :=
      Continues r.importAlias r.cls.name importAlias name ∨
        Continues importAlias name r.importAlias r.cls.name
    IsLatest (fun r => r.key = key importAlias name) registrations found ∧
    (∀ r : Registration, r.key = key importAlias name ↔ r.IsOf importAlias name ∨ confused r) ∧
    ((∀ r ∈ registrations, ¬ confused r) →
      IsLatest (·.IsOf importAlias name) registrations found ∧
      found = (ofRegistrations (registrations.filter (·.IsOf importAlias name))).lookup
        importAlias name) ∧
    ('.' ∉ name.toList → (∀ r ∈ registrations, '.' ∉ r.cls.name.toList) →
      ∀ r ∈ registrations, ¬ confused r) := by
  intro found confused
  have answered : IsLatest (fun r => r.key = key importAlias name) registrations found :=
    isLatest_find? registrations _
  have shared (r : Registration) :
      r.key = key importAlias name ↔ r.IsOf importAlias name ∨ confused r :=
    key_eq_key_iff
  refine ⟨answered, shared, ?_, ?_⟩
  · intro apart
    have same : ∀ r ∈ registrations, r.key = key importAlias name ↔ r.IsOf importAlias name := by
      intro r mem
      rw [shared, or_iff_left (apart r mem)]
    refine ⟨answered.congr same, ?_⟩
    apply Eq.symm
    apply find?_filter
    intro r mem isKey
    exact decide_eq_true ((same r mem).mp isKey)
  · rintro undotted allUndotted r mem (continues | continues)
    · exact not_continues_of_not_mem undotted continues
    · exact not_continues_of_not_mem (allUndotted r mem) continues

/-- Aliases may contain dots, as long as names do not: of three classes `B`, that in the import `a`
is found behind those of the import `a.b` and of the unit itself. -/
theorem latest_registration_found_of_aliases :
    let base : ClassDef := .root "B" []
    let derived : ClassDef := .derived "B" [] base
    let registrations : List Registration := [⟨some "a", derived⟩, ⟨some "a.b", base⟩, ⟨none, base⟩]
    let found := (ofRegistrations registrations).lookup (some "a") "B"
    IsLatest (·.IsOf (some "a") "B") registrations found ∧ found = some derived := by
  intro base derived registrations found
  have theory := latest_registration_found registrations (some "a") "B"
  have undotted : '.' ∉ "B".toList := by decide
  have apart := theory.2.2.2 undotted (by decide)
  exact ⟨(theory.2.2.1 apart).1, rfl⟩

/-- A class of the unit itself with the name `a.B` is found in the import `a` in the place of the
class `B` of this import. -/
theorem dotted_name_found :
    let imported : ClassDef := .root "B" []
    let dotted : ClassDef := .root "a.B" []
    let registrations : List Registration := [⟨some "a", imported⟩, ⟨none, dotted⟩]
    let found := (ofRegistrations registrations).lookup (some "a") "B"
    IsLatest (·.IsOf (some "a") "B") registrations (some imported) ∧ found = some dotted ∧
      ¬ IsLatest (·.IsOf (some "a") "B") registrations found := by
  intro imported dotted registrations found
  refine ⟨⟨[], _, [⟨none, dotted⟩], rfl, ⟨rfl, rfl⟩, rfl, by decide⟩, rfl, ?_⟩
  rintro ⟨before, latest, after, -, ⟨-, isName⟩, isCls, -⟩
  rw [isCls] at isName
  exact absurd isName (by decide)

end Registry

end BodyCheck
