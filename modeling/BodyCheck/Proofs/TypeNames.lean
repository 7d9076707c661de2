import BodyCheck.Proofs.Reports

/-!
# Names of types are unambiguous

A type is shown to the user by its name only.  As long as classes go by words that are no names of
builtin types, types with the same name are equal, and so are signatures that are written alike.  A
message that two types do not fit together then never gives the same name twice.

## Main definitions

* `Ty.isWellNamed`, `Signature.isWellNamed` — all classes inside go by names for classes.
* `Ty.closing?` — the mark that the name of a type ends with.
* `Signature.same` — equality of signatures, by the names of classes.
* `Diagnostic.TellsApart` — a message about two types that gives each a name of its own.

## Main statements

* `Ty.text_eq_iff_same`, `Signature.text_eq_iff_same` — equal names are those of equal types.
* `Ty.names_unambiguous` — this and what it means for the diagnostics of an analysis.

## Design notes

A name is read from its end, where the mark tells whether the type is an array or stands between
brackets, and no word ends in a mark.  The list of parameters is read from its start, as no name of
a type holds a comma or a closing parenthesis.
-/

namespace BodyCheck

/-! ## Names of types -/

/-- The characters of words: letters, digits, `_` and `$`; beyond ASCII all characters count. -/
def isWordChar (c : Char) : Bool :=
  c.isAlphanum || c == '_' || c == '$' || 127 < c.toNat

namespace Ty

/-- The types that are there without any class. -/
def builtins : List Ty :=
  [void, null, boolean, int, number, string, variant]

/-- Whether a class can go by the name: it is a word, and not the name of a builtin type. -/
def isClassName (name : String) : Bool :=
  !name.toList.isEmpty && name.toList.all isWordChar && !(builtins.map text).contains name

/-- A class may be called by any word that is not the name of a builtin type. -/
theorem isClassName_iff {name : String} : isClassName name = true ↔
    name.toList ≠ [] ∧ (∀ c ∈ name.toList, isWordChar c = true) ∧ name ∉ builtins.map text := by
  simp [isClassName, and_assoc]

/-- Whether all classes in the type go by names for classes. -/
def isWellNamed : Ty → Bool
  | maybeUndefined inner => inner.isWellNamed
  | object cls => isClassName cls.name
  | array element | map element => element.isWellNamed
  | _ => true

/-- The mark that the name of the type ends with, if it is not a word. -/
def closing? : Ty → Option Char
  | maybeUndefined _ | map _ => some '>'
  | array _ => some ']'
  | _ => none

variable {a b t : Ty}

/-- A type whose name has no mark at its end is builtin or a class. -/
theorem mem_builtins_or_object (plain : t.closing? = none) :
    t ∈ builtins ∨ ∃ cls, t = object cls := by
  cases t with
  | object cls => exact .inr ⟨cls, rfl⟩
  | maybeUndefined | array | map => cases plain
  | _ => exact .inl (by decide)

/-- A name without a mark is a word. -/
theorem word_text (wellNamed : t.isWellNamed = true) (plain : t.closing? = none) :
    t.text.toList ≠ [] ∧ ∀ c ∈ t.text.toList, isWordChar c = true := by
  rcases mem_builtins_or_object plain with builtin | ⟨cls, rfl⟩
  · have all : ∀ t ∈ builtins, t.text.toList ≠ [] ∧ t.text.toList.all isWordChar = true := by
      decide
    exact ⟨(all t builtin).1, List.all_eq_true.mp (all t builtin).2⟩
  · obtain ⟨notEmpty, word, -⟩ := isClassName_iff.mp wellNamed
    exact ⟨notEmpty, word⟩

/-- The mark at the end can be read off the name. -/
theorem closing?_eq (wellNamed : t.isWellNamed = true) :
    t.closing? = t.text.toList.getLast?.filter (!isWordChar ·) := by
  cases t with
  | maybeUndefined inner | array element | map element =>
    simp only [text_maybeUndefined, text_array, text_map, String.toList_append,
      List.getLast?_append]
    rfl
  | _ =>
    obtain ⟨notEmpty, word⟩ := word_text wellNamed rfl
    have last := word _ (List.getLast_mem notEmpty)
    rw [List.getLast?_eq_some_getLast notEmpty, Option.filter_some, last]
    rfl

/-- Types of the same name have the same mark at its end. -/
theorem closing?_congr (wellNamed : a.isWellNamed = true) (wellNamed' : b.isWellNamed = true)
    (h : a.text = b.text) : a.closing? = b.closing? := by
  rw [closing?_eq wellNamed, h, ← closing?_eq wellNamed']

/-- A builtin type shares its name with no other type. -/
theorem eq_of_text_eq_builtin (builtin : a ∈ builtins) (wellNamed : b.isWellNamed = true)
    (plain : b.closing? = none) (h : a.text = b.text) : a = b := by
  rcases mem_builtins_or_object plain with builtin' | ⟨cls, rfl⟩
  · have all : ∀ a ∈ builtins, ∀ b ∈ builtins, a.text = b.text → a = b := by decide +kernel
    exact all a builtin b builtin' h
  · obtain ⟨-, -, notBuiltin⟩ := isClassName_iff.mp wellNamed
    have isBuiltin : (object cls).text ∈ builtins.map text := h ▸ List.mem_map_of_mem builtin
    exact absurd isBuiltin notBuiltin

/-- The third character tells the two kinds of bracketed names apart. -/
theorem text_maybeUndefined_ne_map (a b : Ty) : (maybeUndefined a).text ≠ (map b).text := by
  intro h
  have third : (maybeUndefined a).text.toList[2]? = some 'y' := by
    rw [text_maybeUndefined, String.toList_append, String.toList_append, List.append_assoc]
    rfl
  have third' : (map b).text.toList[2]? = some 'p' := by
    rw [text_map, String.toList_append, String.toList_append, List.append_assoc]
    rfl
  rw [h, third'] at third
  cases third

theorem text_maybeUndefined_inj (h : (maybeUndefined a).text = (maybeUndefined b).text) :
    a.text = b.text :=
  (String.append_right_inj _).mp ((String.append_left_inj _).mp h)

theorem text_map_inj (h : (map a).text = (map b).text) : a.text = b.text :=
  (String.append_right_inj _).mp ((String.append_left_inj _).mp h)

theorem text_array_inj (h : (array a).text = (array b).text) : a.text = b.text :=
  (String.append_left_inj _).mp h

/-- Types with the same name are equal. -/
theorem same_of_text_eq (wellNamed : a.isWellNamed = true) (wellNamed' : b.isWellNamed = true)
    (h : a.text = b.text) : a.same b = true := by
  have mark := closing?_congr wellNamed wellNamed' h
  induction a generalizing b with
  | maybeUndefined inner ih =>
    cases b with
    | maybeUndefined inner' =>
      have inside := text_maybeUndefined_inj h
      have same : inner.same inner' = true :=
        ih wellNamed wellNamed' inside (closing?_congr wellNamed wellNamed' inside)
      simpa [same_iff, nominal] using same
    | map element => exact absurd h (text_maybeUndefined_ne_map inner element)
    | _ => cases mark
  | map element ih =>
    cases b with
    | map element' =>
      have inside := text_map_inj h
      have same : element.same element' = true :=
        ih wellNamed wellNamed' inside (closing?_congr wellNamed wellNamed' inside)
      simpa [same_iff, nominal] using same
    | maybeUndefined inner => exact absurd h.symm (text_maybeUndefined_ne_map inner element)
    | _ => cases mark
  | array element ih =>
    cases b with
    | array element' =>
      have inside := text_array_inj h
      have same : element.same element' = true :=
        ih wellNamed wellNamed' inside (closing?_congr wellNamed wellNamed' inside)
      simpa [same_iff, nominal] using same
    | _ => cases mark
  | object cls =>
    rcases mem_builtins_or_object mark.symm with builtin | ⟨cls', rfl⟩
    · rw [eq_of_text_eq_builtin builtin wellNamed rfl h.symm, same_self]
    · rw [same_iff]
      exact congrArg (fun name => object ⟨name, []⟩) h
  | _ => rw [eq_of_text_eq_builtin (by decide) wellNamed' mark.symm h, same_self]

/-- Types have the same name just if they are equal. -/
theorem text_eq_iff_same (wellNamed : a.isWellNamed = true) (wellNamed' : b.isWellNamed = true) :
    a.text = b.text ↔ a.same b = true :=
  ⟨same_of_text_eq wellNamed wellNamed', text_eq_of_same⟩

/-- The characters that names of types are made of. -/
def isNameChar (c : Char) : Bool :=
  isWordChar c || ['.', '<', '>', '[', ']'].contains c

/-- The names of types are made of the characters of words and of a few marks. -/
theorem all_isNameChar_text (wellNamed : t.isWellNamed = true) :
    t.text.toList.all isNameChar = true := by
  have ofWord {t : Ty} (wellNamed : t.isWellNamed = true) (plain : t.closing? = none) :
      t.text.toList.all isNameChar = true := by
    refine List.all_eq_true.mpr fun c mem => ?_
    rw [isNameChar, (word_text wellNamed plain).2 c mem, Bool.true_or]
  induction t with
  | maybeUndefined inner ih =>
    simp only [text_maybeUndefined, String.toList_append, List.all_append, ih wellNamed]
    decide
  | array element ih =>
    simp only [text_array, String.toList_append, List.all_append, ih wellNamed]
    decide
  | map element ih =>
    simp only [text_map, String.toList_append, List.all_append, ih wellNamed]
    decide
  | _ => exact ofWord wellNamed rfl

theorem notMem_text {c : Char} (other : isNameChar c = false) (wellNamed : t.isWellNamed = true) :
    c ∉ t.text.toList := by
  intro mem
  rw [List.all_eq_true.mp (all_isNameChar_text wellNamed) c mem] at other
  cases other

theorem text_ne_nil (wellNamed : t.isWellNamed = true) : t.text.toList ≠ [] := by
  cases t with
  | maybeUndefined inner | array element | map element =>
    simp only [text_maybeUndefined, text_array, text_map, String.toList_append]
    exact List.append_ne_nil_of_right_ne_nil _ (by decide)
  | _ => exact (word_text wellNamed rfl).1

/-- Lists of types have the same names just if they are the same one by one. -/
theorem map_text_eq_iff {ps qs : List Ty} (wellNamed : ∀ t ∈ ps, t.isWellNamed = true)
    (wellNamed' : ∀ t ∈ qs, t.isWellNamed = true) :
    ps.map text = qs.map text ↔ ps.isEqv qs same = true := by
  induction ps generalizing qs with
  | nil => cases qs <;> simp
  | cons p ps ih =>
    cases qs with
    | nil => simp
    | cons q qs =>
      rw [List.forall_mem_cons] at wellNamed wellNamed'
      simp [List.isEqv, text_eq_iff_same wellNamed.1 wellNamed'.1, ih wellNamed.2 wellNamed'.2]

end Ty

/-! ## Names of signatures -/

/-- Of two texts, the first marks are in the same place. -/
theorem append_mark_inj {mark : Char} {l m r s : List Char} (hl : mark ∉ l) (hm : mark ∉ m)
    (h : l ++ mark :: r = m ++ mark :: s) : l = m ∧ r = s := by
  induction l generalizing m with
  | nil =>
    cases m with
    | nil => exact ⟨rfl, (List.cons.inj h).2⟩
    | cons d m => exact absurd ((List.cons.inj h).1 ▸ List.mem_cons_self) hm
  | cons c l ih =>
    cases m with
    | nil => exact absurd ((List.cons.inj h).1 ▸ List.mem_cons_self) hl
    | cons d m =>
      obtain ⟨rfl, others⟩ := List.cons.inj h
      obtain ⟨rfl, rest⟩ := ih (List.not_mem_of_not_mem_cons hl)
        (List.not_mem_of_not_mem_cons hm) others
      exact ⟨rfl, rest⟩

/-- Texts without commas can be told apart when they are listed with commas between them, unless
they are empty. -/
theorem intercalate_comma_inj {ls ms : List (List Char)} (hl : ∀ l ∈ ls, l ≠ [] ∧ ',' ∉ l)
    (hm : ∀ m ∈ ms, m ≠ [] ∧ ',' ∉ m)
    (h : [',', ' '].intercalate ls = [',', ' '].intercalate ms) : ls = ms := by
  have behind (l l' : List Char) (rest : List (List Char)) :
      [',', ' '].intercalate (l :: l' :: rest)
        = l ++ ',' :: (' ' :: [',', ' '].intercalate (l' :: rest)) := by
    simp
  induction ls generalizing ms with
  | nil =>
    cases ms with
    | nil => rfl
    | cons m ms =>
      obtain ⟨notEmpty, -⟩ := hm m List.mem_cons_self
      cases ms <;> simp [notEmpty] at h
  | cons l ls ih =>
    cases ms with
    | nil =>
      obtain ⟨notEmpty, -⟩ := hl l List.mem_cons_self
      cases ls <;> simp [notEmpty] at h
    | cons m ms =>
      obtain ⟨⟨-, noComma⟩, others⟩ := List.forall_mem_cons.mp hl
      obtain ⟨⟨-, noComma'⟩, others'⟩ := List.forall_mem_cons.mp hm
      cases ls with
      | nil =>
        cases ms with
        | nil => simpa using h
        | cons m' ms =>
          rw [behind, List.intercalate_singleton] at h
          simp [h] at noComma
      | cons l' ls =>
        cases ms with
        | nil =>
          rw [behind, List.intercalate_singleton] at h
          simp [← h] at noComma'
        | cons m' ms =>
          rw [behind, behind] at h
          obtain ⟨rfl, rest⟩ := append_mark_inj noComma noComma' h
          rw [ih others others' (List.cons.inj rest).2]

/-- What is in no part and not in what is put between them is not in the whole. -/
theorem notMem_intercalate {c : Char} {between : List Char} {ls : List (List Char)}
    (hBetween : c ∉ between) (h : ∀ l ∈ ls, c ∉ l) : c ∉ between.intercalate ls := by
  induction ls with
  | nil => simp
  | cons l ls ih =>
    obtain ⟨first, others⟩ := List.forall_mem_cons.mp h
    cases ls with
    | nil => simpa using first
    | cons l' ls =>
      rw [List.intercalate_cons_cons, List.mem_append, List.mem_append]
      rintro ((mem | mem) | mem)
      · exact first mem
      · exact hBetween mem
      · exact ih others mem

namespace Signature

/-- Equality of signatures, which tells two classes apart by their names only. -/
def same (s t : Signature) : Bool :=
  s.params.isEqv t.params Ty.same && s.returns.same t.returns

/-- Whether all classes in the signature go by names for classes. -/
def isWellNamed (signature : Signature) : Bool :=
  signature.params.all Ty.isWellNamed && signature.returns.isWellNamed

theorem isWellNamed_iff {s : Signature} : s.isWellNamed = true ↔
    (∀ param ∈ s.params, param.isWellNamed = true) ∧ s.returns.isWellNamed = true := by
  simp [isWellNamed]

/-- The names of the parameters, with commas between them. -/
def paramChars (s : Signature) : List Char :=
  [',', ' '].intercalate (s.params.map (·.text.toList))

theorem toList_text (s : Signature) : s.text.toList
    = "function (".toList ++ (s.paramChars ++ ')' :: (" : ".toList ++ s.returns.text.toList)) := by
  simp [text, paramChars, Function.comp_def]

variable {s t : Signature}

/-- The list of parameters holds no closing parenthesis, so its end can be found. -/
theorem close_notMem_paramChars (wellNamed : ∀ param ∈ s.params, param.isWellNamed = true) :
    ')' ∉ s.paramChars := by
  refine notMem_intercalate (by decide) fun name mem => ?_
  obtain ⟨param, isParam, rfl⟩ := List.mem_map.mp mem
  exact Ty.notMem_text rfl (wellNamed param isParam)

/-- From the list of parameters the name of each parameter can be read off. -/
theorem map_text_eq_of_paramChars_eq (wellNamed : ∀ param ∈ s.params, param.isWellNamed = true)
    (wellNamed' : ∀ param ∈ t.params, param.isWellNamed = true)
    (h : s.paramChars = t.paramChars) : s.params.map Ty.text = t.params.map Ty.text := by
  have listed {params : List Ty} (wellNamed : ∀ param ∈ params, param.isWellNamed = true) :
      ∀ name ∈ params.map (·.text.toList), name ≠ [] ∧ ',' ∉ name := by
    intro name mem
    obtain ⟨param, isParam, rfl⟩ := List.mem_map.mp mem
    have named := wellNamed param isParam
    exact ⟨Ty.text_ne_nil named, Ty.notMem_text rfl named⟩
  have same := intercalate_comma_inj (listed wellNamed) (listed wellNamed') h
  have asStrings := congrArg (List.map String.ofList) same
  simpa [Function.comp_def] using asStrings

/-- Signatures are written alike just if they are equal. -/
theorem text_eq_iff_same (wellNamed : s.isWellNamed = true) (wellNamed' : t.isWellNamed = true) :
    s.text = t.text ↔ s.same t = true := by
  obtain ⟨params, returns⟩ := isWellNamed_iff.mp wellNamed
  obtain ⟨params', returns'⟩ := isWellNamed_iff.mp wellNamed'
  rw [same, Bool.and_eq_true, ← Ty.map_text_eq_iff params params',
    ← Ty.text_eq_iff_same returns returns']
  constructor
  · intro sameText
    have chars := congrArg String.toList sameText
    rw [toList_text, toList_text] at chars
    obtain ⟨sameParams, behind⟩ := append_mark_inj (close_notMem_paramChars params)
      (close_notMem_paramChars params') (List.append_cancel_left chars)
    exact ⟨map_text_eq_of_paramChars_eq params params' sameParams,
      String.toList_inj.mp (List.append_cancel_left behind)⟩
  · rintro ⟨sameParams, sameReturns⟩
    rw [text, text, sameParams, sameReturns]

end Signature

/-! ## Types in diagnostics -/

/-- The two types that a problem is about, if it is that they do not fit together. -/
def Problem.compared? : Problem → Option (Ty × Ty)
  | returnMismatch actual declared => some (actual, declared)
  | caseMismatch subject actual => some (subject, actual)
  | _ => none

namespace Diagnostic

/-- The diagnostic is not about two equal types that do not fit together. -/
def ComparesDistinct (d : Diagnostic) : Prop :=
  ∀ a b, d.problem.compared? = some (a, b) → a.same b = false

/-- If the diagnostic is that two types do not fit together, its message gives each a name of its
own. -/
structure TellsApart (d : Diagnostic) : Prop where
  inCase : ∀ subject actual, d.problem = .caseMismatch subject actual →
    subject.isWellNamed = true → actual.isWellNamed = true →
    d.message = "type mismatch; expected type was '" ++ subject.text ++ "' but got '"
      ++ actual.text ++ "'" ∧ subject.text ≠ actual.text
  inReturn : ∀ actual declared, d.problem = .returnMismatch actual declared →
    actual.isWellNamed = true → declared.isWellNamed = true →
    d.message = "cannot convert '" ++ actual.text ++ "' to return type '" ++ declared.text ++ "'" ∧
      actual.text ≠ declared.text

variable {d : Diagnostic}

theorem ComparesDistinct.of_none (h : d.problem.compared? = none) : d.ComparesDistinct := by
  intro a b compared
  rw [h] at compared
  cases compared

/-- What is compared and found distinct is named distinctly. -/
theorem ComparesDistinct.text_ne (h : d.ComparesDistinct) {a b : Ty}
    (compared : d.problem.compared? = some (a, b)) (wellNamed : a.isWellNamed = true)
    (wellNamed' : b.isWellNamed = true) : a.text ≠ b.text := by
  intro sameText
  have same := Ty.same_of_text_eq wellNamed wellNamed' sameText
  rw [h a b compared] at same
  cases same

theorem ComparesDistinct.tellsApart (h : d.ComparesDistinct) : d.TellsApart where
  inCase subject actual isCase wellNamed wellNamed' := by
    refine ⟨?_, h.text_ne (by rw [isCase]; rfl) wellNamed wellNamed'⟩
    rw [message, isCase]
    rfl
  inReturn actual declared isReturn wellNamed wellNamed' := by
    refine ⟨?_, h.text_ne (by rw [isReturn]; rfl) wellNamed wellNamed'⟩
    rw [message, isReturn]
    rfl

end Diagnostic

open Diagnostic (ComparesDistinct)

namespace Expr

variable {e : Expr} {es : List Expr} {d : Diagnostic}

theorem Reports.compared?_eq_none (h : e.Reports d) : d.problem.compared? = none := by
  induction h with
  | source token source known d h ih => exact ih
  | base token base key known d h ih | key token base key known d h ih => exact ih
  | _ => rfl

theorem AnyReports.compared?_eq_none (h : AnyReports es d) : d.problem.compared? = none := by
  obtain ⟨e, -, reports⟩ := h
  exact reports.compared?_eq_none

end Expr

namespace Simple

/-- Only cases and returns hold two types against one another. -/
theorem Reports.compared?_eq_none {s : Simple} {d : Diagnostic} (h : s.Reports d)
    (notCase : ∀ keyword e, s ≠ caseLabel keyword e) (notReturn : ∀ keyword e, s ≠ ret keyword e) :
    d.problem.compared? = none := by
  cases h with
  | expr s d h => exact h.compared?_eq_none
  | caseMismatch keyword e => exact absurd rfl (notCase keyword e)
  | returnMismatch keyword e => exact absurd rfl (notReturn keyword e)
  | _ => rfl

/-- A simple statement compares only types that are not the same. -/
theorem analyze_comparesDistinct (s : Simple) (ctx : Context) :
    Context.FindsOnly ComparesDistinct ctx (s.analyze ctx).ctx := by
  cases s with
  | caseLabel keyword e =>
    refine analyzeCase_findsOnly (fun d h => .of_none h.compared?_eq_none) (fun _ e p mem => ?_) ctx
    obtain ⟨subject, actual, -, -, misfit, rfl⟩ := Rule.mem_case?_iff.mp mem
    rintro _ _ ⟨⟩
    simp only [Rule.caseFits, Bool.or_eq_false_iff] at misfit
    exact (Ty.same_comm subject actual).trans misfit.1.1
  | ret keyword e =>
    rw [analyze, Outcome.ctx_done]
    refine analyzeWith_findsOnly (fun d h => .of_none h.compared?_eq_none) (fun e p mem => ?_) ctx
    obtain ⟨actual, -, fails, rfl⟩ := Rule.mem_return?_iff.mp mem
    rintro _ _ ⟨⟩
    rw [Bool.eq_false_iff]
    intro same
    rw [Ty.convertsTo_of_same same] at fails
    cases fails
  | _ =>
    exact (analyze_findsOnly _ ctx).mono fun d h =>
      .of_none (h.compared?_eq_none (by simp) (by simp))

end Simple

namespace Stmt

theorem checkOwn_comparesDistinct (s : Stmt) (ctx : Context) :
    Context.FindsOnly ComparesDistinct ctx (s.checkOwn ctx) := by
  cases s with
  | simple s => exact s.analyze_comparesDistinct ctx
  | breakable keyword label header body =>
    refine (checkOwn_findsOnly _ ctx).mono fun d h => .of_none ?_
    cases h with
    | header keyword label header body d h => exact h.compared?_eq_none
    | notSwitchable => rfl
  | ifElse keyword cond onTrue onFalse =>
    exact (cond.analyze_findsOnly ctx).mono fun d h => .of_none h.compared?_eq_none
  | guarded keyword body caught handler finalizer => exact .refl ctx

/-- No types that are said not to fit together are equal. -/
theorem analyzeList_comparesDistinct (body : List Stmt) (ctx : Context) :
    Context.FindsOnly ComparesDistinct ctx (analyzeList body ctx).ctx := by
  refine ⟨_, (attributes_visitsOfList 0 body ctx).found, fun d mem => ?_⟩
  obtain ⟨v, -, isFound⟩ := List.mem_flatMap.mp mem
  exact v.of_mem_found v.stmt.checkOwn_comparesDistinct isFound

end Stmt

/-- **Names of types.**  As long as all classes go by words that are not the names of builtin types,
types have the same name just if they are equal, signatures are written alike just if they are
equal, and whatever an analysis finds, a message that a case does not fit its switch or that a value
cannot be returned never gives the same name to both of its types. -/
theorem Ty.names_unambiguous :
    (∀ a b : Ty, a.isWellNamed = true → b.isWellNamed = true →
      (a.text = b.text ↔ a.same b = true)) ∧
    (∀ s t : Signature, s.isWellNamed = true → t.isWellNamed = true →
      (s.text = t.text ↔ s.same t = true)) ∧
    ∀ (body : List Stmt) (ctx : Context), ∃ found,
      (Stmt.analyzeList body ctx).ctx.diagnostics = ctx.diagnostics ++ found ∧
        ∀ d ∈ found, d.TellsApart := by
  refine ⟨fun a b => Ty.text_eq_iff_same, fun s t => Signature.text_eq_iff_same, fun body ctx => ?_⟩
  obtain ⟨found, added, distinct⟩ := Stmt.analyzeList_comparesDistinct body ctx
  exact ⟨found, added, fun d mem => (distinct d mem).tellsApart⟩

/-- The order of constructors can be seen in the name, and the superclasses of a class cannot.  When
a function that returns a `Leaf` returns a number, the message names both types. -/
theorem Ty.names_unambiguous_of_leaf :
    let leaf : Ty := .object ⟨"Leaf", ["Base"]⟩
    let other : Ty := .object ⟨"Leaf", []⟩
    let s : Signature := ⟨[leaf, .int], .void⟩
    let t : Signature := ⟨[other, .int], .void⟩
    let one : Expr := .value (.synthetic "1") (.typed .int) none
    let body : List Stmt := [.simple (.ret (.synthetic "return") one)]
    let ctx := Context.start ⟨.synthetic "f", leaf, .root "C" []⟩ .empty default
    let d : Diagnostic := ⟨.returnMismatch .int leaf, .synthetic "return"⟩
    (maybeUndefined (array leaf)).text ≠ (array (maybeUndefined leaf)).text ∧
      s ≠ t ∧ s.text = t.text ∧
      (Stmt.analyzeList body ctx).ctx.diagnostics = [d] ∧
      d.message = "cannot convert 'int' to return type 'Leaf'" ∧ Ty.int.text ≠ leaf.text := by
  intro leaf other s t one body ctx d
  obtain ⟨types, signatures, analyses⟩ := names_unambiguous
  have found_d : (Stmt.analyzeList body ctx).ctx.diagnostics = [d] := by decide +kernel
  obtain ⟨found, added, apart⟩ := analyses body ctx
  have isFound : found = [d] := added.symm.trans found_d
  obtain ⟨message, differ⟩ := (apart d (isFound ▸ List.mem_singleton_self d)).inReturn .int leaf rfl
    (by decide) (by decide)
  refine ⟨?_, by decide, ?_, found_d, message, differ⟩
  · rw [Ne, types _ _ (by decide) (by decide)]
    decide
  · rw [signatures s t (by decide) (by decide)]
    decide

end BodyCheck
