import BodyCheck.Proofs.Visits
import Mathlib.Data.List.Nodup

/-!
# The order of sites

The sites of a body are listed in the order in which its statements are written, and so are the
visits of an analysis.

## Main definitions

* `Site.Precedes` — the order in which statements are written.

## Main statements

* `Site.Precedes.asymm` — this is an order: of two sites, only one precedes the other.
* `Stmt.pairwise_sitesOfList` — the sites of a list are listed in this order, and so
  `Stmt.nodup_sitesOfList` — no two statements of a body have the same site, and
  `Stmt.eq_of_mem_visitsOfList` — no statement is visited twice.

## Design notes

The order is given by the ways in which two statements can stand to one another in a tree.  That it
runs into no circle is seen from the addresses of the sites, which it increases.
-/

namespace BodyCheck

/-- Which of the lists inside its statement a list is, counted from the first one. -/
def Slot.rank : Slot → Nat
  | body | onTrue => 0
  | onFalse | handler => 1
  | finalizer => 2

namespace Site

/-- The index, in the list that all is seen from, of the statement that the site is at or in. -/
def outermost (site : Site) : Nat :=
  site.place.head?.elim site.index Prod.fst

/-- The statement at the first site is written before the one at the second. -/
inductive Precedes : Site → Site → Prop
  /-- A statement is written before those in the lists inside it. -/
  | own (i : Nat) (slot : Slot) (site : Site) : Precedes ⟨[], i⟩ (site.inside (i, slot))
  /-- Of two lists inside a statement, all of the first one is written before the second one. -/
  | slot (i : Nat) {slot slot' : Slot} (earlier : slot.rank < slot'.rank) (a b : Site) :
      Precedes (a.inside (i, slot)) (b.inside (i, slot'))
  /-- A statement and all that is inside it are written before its later siblings. -/
  | sibling {a b : Site} (earlier : a.outermost < b.outermost) : Precedes a b
  | inside (step : Nat × Slot) {a b : Site} (h : Precedes a b) :
      Precedes (a.inside step) (b.inside step)

/-- The way to the site as numbers, from the outside in. -/
def address (site : Site) : List Nat :=
  site.place.flatMap (fun step => [step.1, step.2.rank]) ++ [site.index]

theorem address_inside (step : Nat × Slot) (site : Site) :
    (site.inside step).address = step.1 :: step.2.rank :: site.address := rfl

/-- An address begins with the index of the outermost statement. -/
theorem exists_address_eq (site : Site) : ∃ rest, site.address = site.outermost :: rest := by
  obtain ⟨_ | ⟨step, place⟩, index⟩ := site
  · exact ⟨[], rfl⟩
  · exact ⟨_, address_inside step ⟨place, index⟩⟩

/-- The order of sites is that of their addresses in a dictionary. -/
theorem Precedes.address_lt {a b : Site} (h : a.Precedes b) : a.address < b.address := by
  induction h with
  | own i slot site => exact List.cons_lt_cons_iff.mpr (.inr ⟨rfl, List.nil_lt_cons ..⟩)
  | slot i earlier a b =>
    exact List.cons_lt_cons_iff.mpr (.inr ⟨rfl, List.cons_lt_cons_iff.mpr (.inl earlier)⟩)
  | @sibling a b earlier =>
    obtain ⟨rest, isFirst⟩ := a.exists_address_eq
    obtain ⟨rest', isSecond⟩ := b.exists_address_eq
    rw [isFirst, isSecond]
    exact List.cons_lt_cons_iff.mpr (.inl earlier)
  | inside step h ih =>
    exact List.cons_lt_cons_iff.mpr (.inr ⟨rfl, List.cons_lt_cons_iff.mpr (.inr ⟨rfl, ih⟩)⟩)

/-- Of two sites, only one precedes the other. -/
theorem Precedes.asymm {a b : Site} (h : a.Precedes b) : ¬ b.Precedes a :=
  fun h' => List.lt_asymm h.address_lt h'.address_lt

/-- A statement is not written before itself. -/
theorem Precedes.ne {a b : Site} (h : a.Precedes b) : a ≠ b := by
  rintro rfl
  exact h.asymm h

variable {step : Nat × Slot} {i : Nat} {slot slot' : Slot} {sites sites' : List Site}

/-- All of the sites are in the list that the step leads to. -/
def Through (step : Nat × Slot) (sites : List Site) : Prop :=
  ∀ site ∈ sites, site.place.head? = some step

theorem through_inside (step : Nat × Slot) (sites : List Site) :
    Through step (sites.map (inside step)) := by
  intro site mem
  obtain ⟨inner, -, rfl⟩ := List.mem_map.mp mem
  rfl

theorem Through.exists_inside (h : Through step sites) {site : Site} (mem : site ∈ sites) :
    ∃ inner : Site, site = inner.inside step := by
  have first := h site mem
  obtain ⟨_ | ⟨step', rest⟩, index⟩ := site
  · cases first
  · cases first
    exact ⟨⟨rest, index⟩, rfl⟩

theorem Through.outermost (h : Through step sites) {site : Site} (mem : site ∈ sites) :
    site.outermost = step.1 := by
  rw [Site.outermost, h site mem, Option.elim_some]

/-- A statement is written before those in the lists inside it. -/
theorem Through.own (h : Through (i, slot) sites) : ∀ site ∈ sites, Precedes ⟨[], i⟩ site := by
  intro site mem
  obtain ⟨inner, rfl⟩ := h.exists_inside mem
  exact .own i slot inner

theorem Through.before (h : Through (i, slot) sites) (h' : Through (i, slot') sites')
    (earlier : slot.rank < slot'.rank) : ∀ a ∈ sites, ∀ b ∈ sites', a.Precedes b := by
  intro a mem b mem'
  obtain ⟨inner, rfl⟩ := h.exists_inside mem
  obtain ⟨inner', rfl⟩ := h'.exists_inside mem'
  exact .slot i earlier inner inner'

theorem pairwise_inside (h : sites.Pairwise Precedes) (step : Nat × Slot) :
    (sites.map (inside step)).Pairwise Precedes :=
  List.pairwise_map.mpr (h.imp (.inside step))

end Site

namespace Stmt

open Site (Precedes Through through_inside pairwise_inside)

theorem through_sitesOfPart (step : Nat × Slot) (part : Option (List Stmt)) :
    Through step (sitesOfPart step part) := by
  cases part with
  | none => simp [sitesOfPart, Through]
  | some body =>
    rw [sitesOfPart]
    exact through_inside _ _

/-- The sites of a statement lie at it or inside it. -/
theorem outermost_of_mem_sites {i : Nat} {s : Stmt} {site : Site} (h : site ∈ s.sites i) :
    site.outermost = i := by
  cases s with
  | simple s =>
    rw [sites, List.mem_singleton] at h
    rw [h]
    rfl
  | breakable keyword label header body =>
    rw [sites] at h
    rcases List.mem_cons.mp h with rfl | mem
    · rfl
    · exact (through_inside _ _).outermost mem
  | ifElse keyword cond onTrue onFalse =>
    rw [sites, List.mem_cons, List.mem_append] at h
    rcases h with rfl | mem | mem
    · rfl
    · exact (through_inside _ _).outermost mem
    · exact (through_inside _ _).outermost mem
  | guarded keyword body caught handler finalizer =>
    rw [sites, List.mem_cons, List.mem_append, List.mem_append] at h
    rcases h with rfl | (mem | mem) | mem
    · rfl
    · exact (through_inside _ _).outermost mem
    · exact (through_sitesOfPart _ _).outermost mem
    · exact (through_sitesOfPart _ _).outermost mem

theorem le_outermost_of_mem_sitesOfList {i : Nat} {body : List Stmt} {site : Site}
    (h : site ∈ sitesOfList i body) : i ≤ site.outermost := by
  induction body generalizing i with
  | nil =>
    rw [sitesOfList] at h
    cases h
  | cons s rest ih =>
    rw [sitesOfList] at h
    rcases List.mem_append.mp h with mem | mem
    · exact Nat.le_of_eq (outermost_of_mem_sites mem).symm
    · exact Nat.le_of_succ_le (ih mem)

mutual

/-- The sites of a statement are listed in the order in which they are written. -/
theorem pairwise_sites (i : Nat) : (s : Stmt) → (s.sites i).Pairwise Precedes
  | simple s => by
    rw [sites]
    exact List.pairwise_singleton ..
  | breakable keyword label header body => by
    rw [sites]
    exact List.pairwise_cons.mpr
      ⟨(through_inside _ _).own, pairwise_inside (pairwise_sitesOfList 0 body) _⟩
  | ifElse keyword cond onTrue onFalse => by
    have thenSites := through_inside (i, .onTrue) (sitesOfList 0 onTrue)
    have elseSites := through_inside (i, .onFalse) (sitesOfList 0 onFalse)
    rw [sites, List.pairwise_cons, List.forall_mem_append, List.pairwise_append]
    exact ⟨⟨thenSites.own, elseSites.own⟩, pairwise_inside (pairwise_sitesOfList 0 onTrue) _,
      pairwise_inside (pairwise_sitesOfList 0 onFalse) _, thenSites.before elseSites (by decide)⟩
  | guarded keyword body caught handler finalizer => by
    have bodySites := through_inside (i, .body) (sitesOfList 0 body)
    have handlerSites := through_sitesOfPart (i, .handler) handler
    have finalizerSites := through_sitesOfPart (i, .finalizer) finalizer
    rw [sites, List.pairwise_cons, List.forall_mem_append, List.forall_mem_append,
      List.pairwise_append, List.pairwise_append, List.forall_mem_append]
    exact ⟨⟨⟨bodySites.own, handlerSites.own⟩, finalizerSites.own⟩,
      ⟨pairwise_inside (pairwise_sitesOfList 0 body) _, pairwise_sitesOfPart _ handler,
        bodySites.before handlerSites (by decide)⟩,
      pairwise_sitesOfPart _ finalizer, bodySites.before finalizerSites (by decide),
      handlerSites.before finalizerSites (by decide)⟩

/-- The sites of a list are listed in the order in which its statements are written. -/
theorem pairwise_sitesOfList (i : Nat) : (body : List Stmt) →
    (sitesOfList i body).Pairwise Precedes
  | [] => by
    rw [sitesOfList]
    exact .nil
  | s :: rest => by
    rw [sitesOfList, List.pairwise_append]
    refine ⟨pairwise_sites i s, pairwise_sitesOfList (i + 1) rest, fun a mem b mem' => ?_⟩
    have here := outermost_of_mem_sites mem
    have behind := le_outermost_of_mem_sitesOfList mem'
    exact .sibling (by omega)

theorem pairwise_sitesOfPart (step : Nat × Slot) : (part : Option (List Stmt)) →
    (sitesOfPart step part).Pairwise Precedes
  | none => by
    rw [sitesOfPart]
    exact .nil
  | some body => by
    rw [sitesOfPart]
    exact pairwise_inside (pairwise_sitesOfList 0 body) step

end

/-- No two statements of a body have the same site. -/
theorem nodup_sitesOfList (i : Nat) (body : List Stmt) : (sitesOfList i body).Nodup :=
  (pairwise_sitesOfList i body).imp Precedes.ne

/-- The visits of an analysis follow the order in which the statements are written. -/
theorem pairwise_visitsOfList (i : Nat) (body : List Stmt) (ctx : Context) :
    (visitsOfList i body ctx).Pairwise fun v w => v.site.Precedes w.site :=
  List.pairwise_map.mp
    ((pairwise_sitesOfList i body).sublist (goesThrough_visitsOfList i body ctx).inOrder.sublist)

/-- No statement is visited twice. -/
theorem eq_of_mem_visitsOfList {i : Nat} {body : List Stmt} {ctx : Context} {v w : Visit}
    (hv : v ∈ visitsOfList i body ctx) (hw : w ∈ visitsOfList i body ctx)
    (same : v.site = w.site) : v = w := by
  have once : ((visitsOfList i body ctx).map Visit.site).Nodup :=
    (nodup_sitesOfList i body).sublist (goesThrough_visitsOfList i body ctx).inOrder.sublist
  exact List.inj_on_of_nodup_map once hv hw same

end Stmt

end BodyCheck
