import BodyCheck.Form
import Mathlib.Tactic.SplitIfs

/-!
# Writing is unambiguous

Two forms that are written with the same characters are the same form.  No closing mark is needed
for this but those that are there: where one form ends and the next begins can be told from the
characters alone, whatever stands in the texts inside the form.

## Main definitions

* `Form.unescape` — reads one character of a quoted text.
* `Form.EndsNumber` — characters that do not continue a number.
* `Form.Kind` — what a form is, as far as its first character tells.

## Main statements

* `Form.unescape_escape` — an escaped character is read back, whatever follows it.
* `Form.chars_append_inj` — a form and what follows it can be told apart.
* `Form.write_injective` — a form is determined by the text it is written as.

## Design notes

All statements are about characters with arbitrary others behind them, which is what the induction
over a list of forms needs.  Only a number has no end of its own; it ends where something follows
that is no digit, and inside a list a comma or a bracket always does.
-/

namespace BodyCheck.Form

/-! ## Quoted texts -/

/-- The number that a hexadecimal digit stands for. -/
def hexValue (c : Char) : Nat :=
  if c.isDigit then c.toNat - 48 else c.toNat - 87

/-- A hexadecimal digit is read as it was written. -/
theorem hexValue_digitChar {n : Nat} (h : n < 16) : hexValue n.digitChar = n := by
  have all : ∀ n < 16, hexValue (Nat.digitChar n) = n := by decide
  exact all n h

/-- Reads one character between quotes; there is none in front of the closing quote. -/
def unescape : List Char → Option (Char × List Char)
  | [] => none
  | '"' :: _ => none
  | '\\' :: 'u' :: '0' :: '0' :: high :: low :: rest =>
    some (Char.ofNat (16 * hexValue high + hexValue low), rest)
  | '\\' :: 'b' :: rest => some ('\x08', rest)
  | '\\' :: 't' :: rest => some ('\t', rest)
  | '\\' :: 'n' :: rest => some ('\n', rest)
  | '\\' :: 'f' :: rest => some ('\x0c', rest)
  | '\\' :: 'r' :: rest => some ('\r', rest)
  | '\\' :: c :: rest => some (c, rest)
  | c :: rest => some (c, rest)

/-- An escaped character is read back, and nothing of what follows it is touched. -/
theorem unescape_escape (c : Char) (rest : List Char) :
    unescape (escape c ++ rest) = some (c, rest) := by
  unfold escape
  split_ifs with quote backslash backspace tab newline formFeed return_ control
  · subst quote; rfl
  · subst backslash; rfl
  · subst backspace; rfl
  · subst tab; rfl
  · subst newline; rfl
  · subst formFeed; rfl
  · subst return_; rfl
  · have high : hexValue (Nat.digitChar (c.toNat / 16)) = c.toNat / 16 :=
      hexValue_digitChar (by omega)
    have low : hexValue (Nat.digitChar (c.toNat % 16)) = c.toNat % 16 :=
      hexValue_digitChar (by omega)
    show some (Char.ofNat (16 * hexValue _ + hexValue _), rest) = some (c, rest)
    rw [high, low, Nat.div_add_mod, Char.ofNat_toNat]
  · simp [unescape, backslash]

/-- Of two quoted texts, the closing quotes are in the same place. -/
theorem flatMap_escape_append_inj {cs ds r s : List Char}
    (h : cs.flatMap escape ++ '"' :: r = ds.flatMap escape ++ '"' :: s) : cs = ds ∧ r = s := by
  induction cs generalizing ds with
  | nil =>
    cases ds with
    | nil => simpa using h
    | cons d ds =>
      -- On the left the text is at its end, on the right there is a character to be read.
      have read := congrArg unescape h
      rw [List.flatMap_cons, List.append_assoc, unescape_escape] at read
      simp [unescape] at read
  | cons c cs ih =>
    cases ds with
    | nil =>
      have read := congrArg unescape h
      rw [List.flatMap_cons, List.append_assoc, unescape_escape] at read
      simp [unescape] at read
    | cons d ds =>
      have read := congrArg unescape h
      rw [List.flatMap_cons, List.flatMap_cons, List.append_assoc, List.append_assoc,
        unescape_escape, unescape_escape] at read
      obtain ⟨rfl, behind⟩ := Prod.mk.inj (Option.some.inj read)
      obtain ⟨rfl, rest⟩ := ih behind
      exact ⟨rfl, rest⟩

/-- What stands in quotes and what follows can be told apart. -/
theorem quoted_append_inj {cs ds r s : List Char} (h : quoted cs ++ r = quoted ds ++ s) :
    cs = ds ∧ r = s := by
  apply flatMap_escape_append_inj
  simpa [quoted] using h

/-! ## Numbers -/

/-- The characters do not continue a number. -/
def EndsNumber (rest : List Char) : Prop :=
  ∀ c ∈ rest.head?, c.isDigit = false

theorem endsNumber_nil : EndsNumber [] :=
  nofun

theorem endsNumber_cons {c : Char} {rest : List Char} (h : c.isDigit = false) :
    EndsNumber (c :: rest) := by
  rintro _ ⟨⟩
  exact h

/-- The digits of a number are all the digits up to its end. -/
theorem takeWhile_toDigits (n : Nat) {rest : List Char} (ends : EndsNumber rest) :
    (Nat.toDigits 10 n ++ rest).takeWhile Char.isDigit = Nat.toDigits 10 n := by
  rw [List.takeWhile_append_of_pos fun c mem =>
    Nat.isDigit_of_mem_toDigits (by decide) (by decide) mem]
  cases rest with
  | nil => simp
  | cons c rest =>
    have notDigit : c.isDigit = false := ends c rfl
    simp [notDigit]

theorem toDigits_append_inj {n m : Nat} {r s : List Char} (endsR : EndsNumber r)
    (endsS : EndsNumber s) (h : Nat.toDigits 10 n ++ r = Nat.toDigits 10 m ++ s) :
    n = m ∧ r = s := by
  have digits : Nat.toDigits 10 n = Nat.toDigits 10 m := by
    rw [← takeWhile_toDigits n endsR, h, takeWhile_toDigits m endsS]
  rw [digits] at h
  refine ⟨?_, List.append_cancel_left h⟩
  calc n = Nat.ofDigitChars 10 (Nat.toDigits 10 n) 0 := Nat.ofDigitChars_ten_toDigits.symm
    _ = Nat.ofDigitChars 10 (Nat.toDigits 10 m) 0 := by rw [digits]
    _ = m := Nat.ofDigitChars_ten_toDigits

/-! ## Forms -/

/-- What a form is. -/
inductive Kind
  | null
  | nat
  | text
  | list
deriving DecidableEq

/-- What the form is. -/
def kind : Form → Kind
  | null => .null
  | nat _ => .nat
  | text _ => .text
  | list _ => .list

/-- What a form is that begins with a character. -/
def kindOf (first : Char) : Kind :=
  if first = 'n' then .null
  else if first = '"' then .text
  else if first = '[' then .list
  else .nat

/-- The first character of a form tells what it is, and it is not that at the end of a list. -/
theorem exists_chars_eq_cons (f : Form) :
    ∃ first others, f.chars = first :: others ∧ kindOf first = f.kind ∧ first ≠ ']' := by
  rcases f with _ | n | s | (_ | ⟨item, items⟩)
  · exact ⟨'n', _, rfl, rfl, by decide⟩
  · have notEmpty : Nat.toDigits 10 n ≠ [] := Nat.toDigits_ne_nil
    obtain ⟨first, others, split⟩ := List.exists_cons_of_ne_nil notEmpty
    have isDigit : first.isDigit = true :=
      Nat.isDigit_of_mem_toDigits (n := n) (b := 10) (by decide) (by decide) (by simp [split])
    have differs (c : Char) (h : c.isDigit = false) : first ≠ c := by
      rintro rfl
      rw [isDigit] at h
      cases h
    refine ⟨first, others, split, ?_, differs ']' rfl⟩
    rw [kindOf, if_neg (differs 'n' rfl), if_neg (differs '"' rfl), if_neg (differs '[' rfl)]
    rfl
  · exact ⟨'"', _, rfl, rfl, by decide⟩
  · exact ⟨'[', _, rfl, rfl, by decide⟩
  · exact ⟨'[', _, rfl, rfl, by decide⟩

/-- The first character of what is written tells the kind of form. -/
theorem kind_eq_of_append_eq {f g : Form} {r s : List Char} (h : f.chars ++ r = g.chars ++ s) :
    f.kind = g.kind := by
  obtain ⟨c, cs, isF, kindF, -⟩ := f.exists_chars_eq_cons
  obtain ⟨d, ds, isG, kindG, -⟩ := g.exists_chars_eq_cons
  rw [isF, isG] at h
  obtain ⟨rfl, -⟩ := List.cons_eq_cons.mp h
  exact kindF.symm.trans kindG

/-- Where an item may stand, the end of the list is no item. -/
theorem chars_append_ne_close (f : Form) (r s : List Char) : f.chars ++ r ≠ ']' :: s := by
  obtain ⟨c, cs, isF, -, notClose⟩ := f.exists_chars_eq_cons
  rw [isF]
  intro same
  exact notClose (List.cons_eq_cons.mp same).1

theorem endsNumber_charsOfOthers (items : List Form) (rest : List Char) :
    EndsNumber (charsOfOthers items ++ rest) := by
  cases items with
  | nil => exact endsNumber_cons rfl
  | cons item items => exact endsNumber_cons rfl

theorem exists_list_of_kind {g : Form} (h : Kind.list = g.kind) : ∃ items, g = list items := by
  cases g with
  | list items => exact ⟨items, rfl⟩
  | _ => cases h

mutual

/-- A form can be told from what follows it. -/
theorem chars_append_inj : (f g : Form) → {r s : List Char} → EndsNumber r → EndsNumber s →
    f.chars ++ r = g.chars ++ s → f = g ∧ r = s
  | null, g, r, s, _, _, h => by
    have sameKind := kind_eq_of_append_eq h
    cases g with
    | null => exact ⟨rfl, List.append_cancel_left h⟩
    | _ => cases sameKind
  | nat n, g, r, s, endsR, endsS, h => by
    have sameKind := kind_eq_of_append_eq h
    cases g with
    | nat m =>
      obtain ⟨rfl, rest⟩ := toDigits_append_inj endsR endsS h
      exact ⟨rfl, rest⟩
    | _ => cases sameKind
  | text t, g, r, s, _, _, h => by
    have sameKind := kind_eq_of_append_eq h
    cases g with
    | text u =>
      obtain ⟨same, rest⟩ := quoted_append_inj h
      exact ⟨congrArg text (String.toList_inj.mp same), rest⟩
    | _ => cases sameKind
  | list [], g, r, s, _, _, h => by
    obtain ⟨items, rfl⟩ := exists_list_of_kind (kind_eq_of_append_eq h)
    cases items with
    | nil => exact ⟨rfl, List.append_cancel_left h⟩
    | cons item items =>
      have inside : ']' :: r = item.chars ++ (charsOfOthers items ++ s) := by
        simpa [chars] using h
      exact absurd inside.symm (item.chars_append_ne_close _ _)
  | list (item :: items), g, r, s, _, _, h => by
    obtain ⟨items', rfl⟩ := exists_list_of_kind (kind_eq_of_append_eq h)
    cases items' with
    | nil =>
      have inside : item.chars ++ (charsOfOthers items ++ r) = ']' :: s := by
        simpa [chars] using h
      exact absurd inside (item.chars_append_ne_close _ _)
    | cons item' items' =>
      have inside : item.chars ++ (charsOfOthers items ++ r)
          = item'.chars ++ (charsOfOthers items' ++ s) := by
        simpa [chars] using h
      obtain ⟨rfl, others⟩ := chars_append_inj item item' (endsNumber_charsOfOthers items r)
        (endsNumber_charsOfOthers items' s) inside
      obtain ⟨rfl, rest⟩ := charsOfOthers_append_inj items items' others
      exact ⟨rfl, rest⟩

/-- The other items of a list can be told from what follows the list. -/
theorem charsOfOthers_append_inj : (fs gs : List Form) → {r s : List Char} →
    charsOfOthers fs ++ r = charsOfOthers gs ++ s → fs = gs ∧ r = s
  | [], [], r, s, h => ⟨rfl, List.append_cancel_left h⟩
  | [], g :: gs, r, s, h => by
    simp [charsOfOthers] at h
  | f :: fs, [], r, s, h => by
    simp [charsOfOthers] at h
  | f :: fs, g :: gs, r, s, h => by
    have behindComma : f.chars ++ (charsOfOthers fs ++ r) = g.chars ++ (charsOfOthers gs ++ s) := by
      simpa [charsOfOthers] using h
    obtain ⟨rfl, others⟩ := chars_append_inj f g (endsNumber_charsOfOthers fs r)
      (endsNumber_charsOfOthers gs s) behindComma
    obtain ⟨rfl, rest⟩ := charsOfOthers_append_inj fs gs others
    exact ⟨rfl, rest⟩

end

/-- A form is determined by the text it is written as. -/
theorem write_injective {f g : Form} (h : f.write = g.write) : f = g := by
  have same : f.chars ++ [] = g.chars ++ [] := by
    rw [List.append_nil, List.append_nil]
    exact String.ofList_injective h
  exact (chars_append_inj f g endsNumber_nil endsNumber_nil same).1

end BodyCheck.Form
