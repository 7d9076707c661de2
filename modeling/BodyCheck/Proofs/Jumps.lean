import BodyCheck.Proofs.Attribution
import BodyCheck.Proofs.Rules
import Mathlib.Data.List.Basic

/-!
# Jumps

Whether a jump is right depends on what is written around it and on nothing else: on the loops and
switches that its list is inside of, and on their labels.

## Main definitions

* `Enclosure` — what a list belongs to, as far as a jump out of it is concerned.
* `Jump` — a jump with the enclosures around it, the innermost first.
* `Jump.found`, `Jump.told` — what is to be reported of a jump, and what is to be told.
* `Jump.Judged` — the same in words: when something is reported, at which token, and how it reads.
* `Stmt.jump?` and `Stmt.enclosuresAt` — the jump that a statement is, and what is around a place.
* `Context.Lasting` — what stays true of a context unless there is something about jumps.

## Main statements

* `Simple.analyzeJump_eq` — the analysis of a jump reports and tells just that.
* `Stmt.checkOwn_lasting` — no other statement has anything to do with jumps.
* `Stmt.jumps_judged_lexically` — all that an analysis finds about jumps.

## Design notes

An enclosure holds neither the tokens of labels nor the type of the subject of a switch, so nothing
that is said in terms of enclosures can depend on these.
-/

namespace BodyCheck

/-! ## Enclosures -/

/-- What a list belongs to, as far as a jump is concerned: a loop or a switch, with the text of its
label, or something that no jump can aim at. -/
inductive Enclosure
  | loop (label : Option String)
  | switch (label : Option String)
  | other
deriving DecidableEq, Repr

namespace Enclosure

/-- The text of the label. -/
def label? : Enclosure → Option String
  | loop label | switch label => label
  | other => none

/-- Whether a jump of this kind may stand in the list: a break in a loop or switch, a continue only
in a loop. -/
def Admits (kind : JumpKind) : Enclosure → Prop
  | loop _ => True
  | switch _ => kind = .breaks
  | other => False

instance (kind : JumpKind) (enclosure : Enclosure) : Decidable (enclosure.Admits kind) :=
  match enclosure with
  | loop _ => inferInstanceAs (Decidable True)
  | switch _ => inferInstanceAs (Decidable (kind = .breaks))
  | other => inferInstanceAs (Decidable False)

end Enclosure

namespace Owner

/-- What jumps see of an owner. -/
def enclosure : Owner → Enclosure
  | breakable (.switch _) label => .switch (label.map (·.value))
  | breakable _ label => .loop (label.map (·.value))
  | _ => .other

/-- Jumps see nothing that is not written in the tree. -/
theorem enclosure_asWritten (owner : Owner) : owner.asWritten.enclosure = owner.enclosure := by
  cases owner with
  | breakable kind label => cases kind <;> rfl
  | _ => rfl

theorem map_enclosure_asWritten (owners : List Owner) :
    (owners.map asWritten).map enclosure = owners.map enclosure := by
  rw [List.map_map]
  exact List.map_congr_left fun owner _ => owner.enclosure_asWritten

/-- An enclosure admits a jump just if the owner may be left by it. -/
theorem admits_enclosure_iff {owner : Owner} {kind : JumpKind} :
    owner.enclosure.Admits kind ↔ kind.mayLeave owner = true := by
  cases owner with
  | breakable what label =>
    cases what <;> cases kind <;>
      simp [enclosure, Enclosure.Admits, JumpKind.mayLeave, isLoop, isSwitch, Breakable.isLoop]
  | _ =>
    cases kind <;> simp [enclosure, Enclosure.Admits, JumpKind.mayLeave, isLoop, isSwitch]

/-- An enclosure carries a name just if the owner is labelled so. -/
theorem label?_enclosure_iff {owner : Owner} {name : String} :
    owner.enclosure.label? = some name ↔ owner.isLabelled name = true := by
  cases owner with
  | breakable kind label =>
    cases kind <;> cases label <;> simp [enclosure, Enclosure.label?, isLabelled, label?]
  | _ => simp [enclosure, Enclosure.label?, isLabelled, label?]

end Owner

/-! ## One jump -/

/-- Whether a problem is that of a jump. -/
def Problem.isAboutJump : Problem → Bool
  | misplacedJump _ | unknownLabel _ => true
  | _ => false

/-- A jump with what is around it, the innermost first. -/
structure Jump where
  kind : JumpKind
  keyword : Token
  label : Option Token
  around : List Enclosure

namespace Jump

/-- The jump stands in something that a jump of its kind may stand in. -/
def Placed (jump : Jump) : Prop :=
  ∃ enclosure ∈ jump.around, enclosure.Admits jump.kind

/-- Something around the jump carries a label of this name. -/
def Sees (jump : Jump) (name : String) : Prop :=
  ∃ enclosure ∈ jump.around, enclosure.label? = some name

instance (jump : Jump) : Decidable jump.Placed :=
  inferInstanceAs (Decidable (∃ enclosure ∈ jump.around, enclosure.Admits jump.kind))

instance (jump : Jump) (name : String) : Decidable (jump.Sees name) :=
  inferInstanceAs (Decidable (∃ enclosure ∈ jump.around, enclosure.label? = some name))

/-- What is to be reported: that the jump is misplaced, at its keyword, and if it is not, that its
label is not around, at the label. -/
def found (jump : Jump) : List Diagnostic :=
  if jump.Placed then
    match jump.label with
    | none => []
    | some label => if jump.Sees label.value then [] else [⟨.unknownLabel label.value, label⟩]
  else [⟨.misplacedJump jump.kind, jump.keyword⟩]

/-- What is to be told: the label is looked up if the jump has one and is not misplaced. -/
def told (jump : Jump) : List Event :=
  if jump.Placed then
    match jump.label with
    | none => []
    | some label => [.labelResolved label.value (jump.Sees label.value)]
  else []

/-- How it reads that a jump of the given kind is misplaced. -/
def misplacedText : JumpKind → String
  | .breaks => "cannot break (a break statement is only allowed within the following statements: "
      ++ "for/do-while/while/switch)"
  | .continues =>
    "cannot continue (a continue statement is only allowed within the following statements: "
      ++ "for/do-while/while)"

/-- How it reads that nothing around a jump carries its label. -/
def unknownLabelText (label : String) : String :=
  "label '" ++ label ++ "' is either not defined or invalid as the destination"

/-- What is reported of a jump and what is told: in each case at most one diagnostic, with its token
and its text, and at most one event. -/
structure Judged (jump : Jump) : Prop where
  /-- That a jump is misplaced is reported at its keyword, and its label is not looked at. -/
  misplaced : ¬ jump.Placed →
    (∃ d, jump.found = [d] ∧ d.token = jump.keyword ∧ d.message = misplacedText jump.kind) ∧
    jump.told = []
  /-- A jump that is not misplaced and has no label is right. -/
  unlabelled : jump.Placed → jump.label = none → jump.found = [] ∧ jump.told = []
  /-- So is one with a label that something around it carries. -/
  labelled : jump.Placed → ∀ label ∈ jump.label, jump.Sees label.value →
    jump.found = [] ∧ jump.told = [.labelResolved label.value true]
  /-- That nothing around it carries the label is reported at the label. -/
  unknown : jump.Placed → ∀ label ∈ jump.label, ¬ jump.Sees label.value →
    (∃ d, jump.found = [d] ∧ d.token = label ∧ d.message = unknownLabelText label.value) ∧
    jump.told = [.labelResolved label.value false]

/-- Every jump is judged this way. -/
theorem judged (jump : Jump) : jump.Judged where
  misplaced misplaced := by
    rw [found, told, if_neg misplaced, if_neg misplaced]
    refine ⟨⟨⟨.misplacedJump jump.kind, jump.keyword⟩, rfl, rfl, ?_⟩, rfl⟩
    cases jump.kind <;> rfl
  unlabelled placed isNone := by
    rw [found, told, if_pos placed, if_pos placed, isNone]
    exact ⟨rfl, rfl⟩
  labelled placed label isLabel seen := by
    rw [found, told, if_pos placed, if_pos placed, Option.mem_def.1 isLabel]
    simp [seen]
  unknown placed label isLabel unseen := by
    rw [found, told, if_pos placed, if_pos placed, Option.mem_def.1 isLabel]
    simp only [unseen, if_false, decide_false, and_true]
    exact ⟨⟨.unknownLabel label.value, label⟩, rfl, rfl, rfl⟩

/-- One of the owners may be left just if one of the enclosures admits the jump. -/
theorem any_mayLeave_iff {jump : Jump} {owners : List Owner}
    (around : jump.around = owners.map Owner.enclosure) :
    owners.any jump.kind.mayLeave = true ↔ jump.Placed := by
  simp only [List.any_eq_true, Placed, around, List.mem_map]
  constructor
  · rintro ⟨owner, mem, leaves⟩
    exact ⟨owner.enclosure, ⟨owner, mem, rfl⟩, Owner.admits_enclosure_iff.2 leaves⟩
  · rintro ⟨_, ⟨owner, mem, rfl⟩, admits⟩
    exact ⟨owner, mem, Owner.admits_enclosure_iff.1 admits⟩

/-- Looking a label up comes to looking for it among the enclosures. -/
theorem isLabelAround_eq {jump : Jump} {owners : List Owner}
    (around : jump.around = owners.map Owner.enclosure) (name : String) :
    Rule.isLabelAround name owners = decide (jump.Sees name) := by
  rw [Bool.eq_iff_iff, decide_eq_true_iff]
  simp only [Rule.isLabelAround, List.any_eq_true, Sees, around, List.mem_map]
  constructor
  · rintro ⟨owner, mem, labelled⟩
    exact ⟨owner.enclosure, ⟨owner, mem, rfl⟩, Owner.label?_enclosure_iff.2 labelled⟩
  · rintro ⟨_, ⟨owner, mem, rfl⟩, label⟩
    exact ⟨owner, mem, Owner.label?_enclosure_iff.1 label⟩

/-- Whatever is to be found of a jump is about jumps. -/
theorem filter_found (jump : Jump) :
    jump.found.filter (·.problem.isAboutJump) = jump.found := by
  unfold found
  split
  · split
    · rfl
    · split <;> rfl
  · rfl

/-- Nothing that is to be told of a jump is about the way of an analysis. -/
theorem filter_told (jump : Jump) : jump.told.filter (!·.isPassage) = jump.told := by
  unfold told
  split
  · split <;> rfl
  · rfl

end Jump

/-- The analysis of a jump adds what is to be reported and what is to be told, and does nothing
else. -/
theorem Simple.analyzeJump_eq {jump : Jump} {ctx : Context}
    (around : jump.around = ctx.stack.owners.map Owner.enclosure) :
    analyzeJump jump.kind jump.keyword jump.label ctx
      = { ctx with
          diagnostics := ctx.diagnostics ++ jump.found
          events := ctx.events ++ jump.told } := by
  obtain ⟨kind, keyword, label, enclosures⟩ := jump
  by_cases placed : Jump.Placed ⟨kind, keyword, label, enclosures⟩
  · have right : Rule.jump? kind ctx.stack.owners = none :=
      if_pos ((Jump.any_mayLeave_iff around).2 placed)
    cases label with
    | none => simp [analyzeJump, right, Jump.found, Jump.told, placed]
    | some label =>
      have lookedUp := Jump.isLabelAround_eq around label.value
      by_cases seen : Jump.Sees ⟨kind, keyword, some label, enclosures⟩ label.value <;>
        simp [analyzeJump, right, Rule.label?, lookedUp, Jump.found, Jump.told, placed, seen,
          Context.tell, Context.reportAny, Context.report]
  · have wrong : Rule.jump? kind ctx.stack.owners = some (.misplacedJump kind) :=
      if_neg (mt (Jump.any_mayLeave_iff around).1 placed)
    simp [analyzeJump, wrong, Jump.found, Jump.told, placed, Context.report]

/-! ## Everything else -/

namespace Context

/-- What has been found about jumps. -/
def aboutJumps (ctx : Context) : List Diagnostic :=
  ctx.diagnostics.filter (·.problem.isAboutJump)

/-- A property of contexts that lasts when a local is assigned and when a problem is reported that
is not that of a jump. -/
structure Lasting (P : Context → Prop) : Prop where
  setLocals : ∀ {ctx : Context} (locals : Locals), P ctx → P (ctx.setLocals locals)
  report : ∀ {ctx : Context} {problem : Problem} (token : Token), problem.isAboutJump = false →
    P ctx → P (ctx.report problem token)

/-- A property that lasts when problems are reported does so as well if there may be none. -/
theorem Lasting.reportAny {P : Context → Prop} (lasting : Lasting P) {ctx : Context}
    {problem : Option Problem} (token : Token) (other : ∀ p ∈ problem, p.isAboutJump = false)
    (h : P ctx) : P (ctx.reportAny problem token) := by
  cases problem with
  | none => exact h
  | some problem => exact lasting.report token (other problem rfl) h

end Context

section Lasting

variable {P : Context → Prop} (lasting : Context.Lasting P) {ctx : Context}
include lasting

namespace Expr

/-- The analysis of an expression assigns locals and reports problems of its own, and does nothing
else to the context. -/
theorem analyze_lasting (e : Expr) (h : P ctx) : P (e.analyze ctx).ctx := by
  induction e generalizing ctx with
  | value token content known =>
    cases content with
    | failing message => exact lasting.report token rfl h
    | typed ty | untyped => exact h
  | read token declared known =>
    rcases analyze_read_cases token declared known ctx with ⟨-, step⟩ | ⟨-, step⟩ | ⟨-, step⟩
    · rw [step]
      exact lasting.report token rfl h
    · rw [step]
      exact lasting.report token rfl h
    · rw [step]
      exact h
  | assign token source known ih =>
    rcases analyze_assign_cases token source known ctx with
      ⟨-, step⟩ | ⟨-, -, step⟩ | ⟨locals, -, -, step⟩
    · rw [step]
      exact ih h
    · rw [step]
      exact lasting.report token rfl (ih h)
    · rw [step]
      exact lasting.setLocals locals (ih h)
  | index token base key known ihBase ihKey =>
    rcases analyze_index_cases token base key known ctx with ⟨-, step⟩ | ⟨-, -, step⟩ |
      ⟨-, -, -, step⟩ | ⟨ty, -, -, -, -, step⟩ | ⟨ty, element, -, -, -, -, step⟩
    · rw [step]
      exact ihBase h
    · rw [step]
      exact ihKey (ihBase h)
    · rw [step]
      exact ihKey (ihBase h)
    · rw [step]
      exact lasting.report token rfl (ihKey (ihBase h))
    · rw [step]
      exact ihKey (ihBase h)

theorem analyzeOptional_lasting (e : Option Expr) (h : P ctx) : P (analyzeOptional e ctx).2 := by
  cases e with
  | none => exact h
  | some e => exact e.analyze_lasting lasting h

theorem analyzeWhileOk_lasting (es : List Expr) (h : P ctx) : P (analyzeWhileOk es ctx).2.1 := by
  induction es generalizing ctx with
  | nil => exact h
  | cons e es ih =>
    rw [analyzeWhileOk]
    dsimp only
    split
    · exact ih (e.analyze_lasting lasting h)
    · exact e.analyze_lasting lasting h

theorem analyzeArgs_lasting (es : List Expr) (h : P ctx) : P (analyzeArgs es ctx).2.1 := by
  induction es generalizing ctx with
  | nil => exact h
  | cons e es ih =>
    rw [analyzeArgs]
    dsimp only
    split
    · exact ih (e.analyze_lasting lasting h)
    · exact e.analyze_lasting lasting h

end Expr

/-- The analysis of a header reports at most that its subject cannot be switched over. -/
theorem Header.analyze_lasting (keyword : Token) (header : Header) (h : P ctx) :
    P (header.analyze keyword ctx).ctx := by
  cases header with
  | doWhile e | forIn _ e | whileLoop e => exact e.analyze_lasting lasting h
  | forLoop start cond step =>
    exact Expr.analyzeOptional_lasting lasting step
      (Expr.analyzeOptional_lasting lasting cond (Expr.analyzeOptional_lasting lasting start h))
  | switch subject =>
    refine lasting.reportAny keyword (fun p mem => ?_) (subject.analyze_lasting lasting h)
    obtain ⟨ty, -, -, rfl⟩ := Rule.mem_switch?_iff.1 mem
    rfl

namespace Simple

/-- An invocation reports at most one problem, which is not that of a jump. -/
theorem analyzeConstruct_lasting (target : QualifiedName) (args : List Expr)
    (resolution : Option Resolution) (h : P ctx) :
    P (analyzeConstruct target args resolution ctx).2 := by
  have arguments := Expr.analyzeArgs_lasting lasting args h
  rw [analyzeConstruct]
  split
  next problem notFound =>
    refine lasting.report target.token ?_ h
    rcases QualifiedName.resolve_eq_error_iff.1 notFound with ⟨-, -, rfl⟩ | ⟨-, -, rfl⟩
    · rfl
    · rfl
  next cls _ =>
    dsimp only
    split
    · exact arguments
    · split
      · exact arguments
      · exact lasting.report target.token rfl arguments

/-- What a rule says of an expression is not about jumps. -/
theorem analyzeWith_lasting (e : Expr) (keyword : Token) {rule : Expr → Option Problem}
    (other : ∀ e, ∀ p ∈ rule e, p.isAboutJump = false) (h : P ctx) :
    P (analyzeWith e ctx keyword rule).2 := by
  rw [analyzeWith]
  dsimp only
  split
  · exact lasting.reportAny keyword (other _) (e.analyze_lasting lasting h)
  · exact e.analyze_lasting lasting h

theorem analyzeAllWith_lasting (es : List Expr) (keyword : Token)
    {rule : List Expr → Option Problem}
    (other : ∀ es, ∀ p ∈ rule es, p.isAboutJump = false) (h : P ctx) :
    P (analyzeAllWith es ctx keyword rule).2 := by
  rw [analyzeAllWith]
  dsimp only
  split
  · exact lasting.reportAny keyword (other _) (Expr.analyzeWhileOk_lasting lasting es h)
  · exact Expr.analyzeWhileOk_lasting lasting es h

theorem analyzeCase_lasting (keyword : Token) (e : Expr) (h : P ctx) :
    P (analyzeCase keyword e ctx).ctx := by
  have behind := e.analyze_lasting lasting h
  rw [analyzeCase]
  split
  · split
    · refine lasting.reportAny keyword (fun p mem => ?_) behind
      obtain ⟨subject, actual, -, -, -, rfl⟩ := Rule.mem_case?_iff.1 mem
      rfl
    · exact behind
  · exact behind

/-- So does that of a simple statement other than a jump. -/
theorem analyze_lasting (s : Simple) (noJump : ∀ kind keyword label, s ≠ jump kind keyword label)
    (h : P ctx) : P (s.analyze ctx).ctx := by
  cases s with
  | construct target args resolution => exact analyzeConstruct_lasting lasting target args _ h
  | expression e => exact e.analyze_lasting lasting h
  | ret keyword e =>
    rw [analyze, Outcome.ctx_done]
    refine analyzeWith_lasting lasting e keyword (fun e p mem => ?_) h
    obtain ⟨ty, -, -, rfl⟩ := Rule.mem_return?_iff.1 mem
    rfl
  | delete keyword e =>
    refine analyzeWith_lasting lasting e keyword (fun e p mem => ?_) h
    obtain ⟨-, rfl⟩ := Rule.mem_delete?_iff.1 mem
    rfl
  | jump kind keyword label => exact absurd rfl (noJump kind keyword label)
  | caseLabel keyword e => exact analyzeCase_lasting lasting keyword e h
  | defaultLabel keyword => exact h
  | assert keyword exprs =>
    cases exprs with
    | nil => exact h
    | cons e es =>
      rw [analyze, Outcome.ctx_done]
      refine analyzeAllWith_lasting lasting (e :: es) keyword (fun es p mem => ?_) h
      rcases Rule.mem_assert?_iff.1 mem with ⟨-, rfl⟩ | ⟨-, rfl⟩
      · rfl
      · rfl
  | log keyword exprs =>
    rw [analyze, Outcome.ctx_done]
    refine analyzeAllWith_lasting lasting exprs keyword (fun es p mem => ?_) h
    obtain ⟨-, rfl⟩ := Rule.mem_log?_iff.1 mem
    rfl

end Simple

/-- The checks of a statement that is no jump keep every lasting property of the context. -/
theorem Stmt.checkOwn_lasting (s : Stmt)
    (noJump : ∀ kind keyword label, s ≠ simple (.jump kind keyword label)) (h : P ctx) :
    P (s.checkOwn ctx) := by
  cases s with
  | simple s =>
    refine s.analyze_lasting lasting (fun kind keyword label same => ?_) h
    exact noJump kind keyword label (congrArg simple same)
  | breakable keyword label header body => exact header.analyze_lasting lasting keyword h
  | ifElse keyword cond onTrue onFalse => exact cond.analyze_lasting lasting h
  | guarded => exact h

/-- The checks of any statement keep a lasting property that those of a jump keep as well. -/
theorem Stmt.checkOwn_keeps (s : Stmt)
    (atJump : ∀ kind keyword label, P (Simple.analyzeJump kind keyword label ctx)) (h : P ctx) :
    P (s.checkOwn ctx) := by
  by_cases isJump : ∃ kind keyword label, s = simple (.jump kind keyword label)
  · obtain ⟨kind, keyword, label, rfl⟩ := isJump
    exact atJump kind keyword label
  · refine s.checkOwn_lasting lasting (fun kind keyword label same => ?_) h
    exact isJump ⟨kind, keyword, label, same⟩

end Lasting

/-! ## The jumps of an analysis -/

namespace Stmt

/-- The jump that a statement is, with what is around it. -/
def jump? (around : List Enclosure) : Stmt → Option Jump
  | simple (.jump kind keyword label) => some ⟨kind, keyword, label, around⟩
  | _ => none

/-- A jump can be told from the statement, and with it what it is. -/
theorem eq_of_jump? {s : Stmt} {around : List Enclosure} {jump : Jump}
    (h : s.jump? around = some jump) :
    s = simple (.jump jump.kind jump.keyword jump.label) ∧ jump.around = around := by
  unfold jump? at h
  split at h
  · cases h
    exact ⟨rfl, rfl⟩
  · cases h

/-- What is around a place in a body, the innermost first. -/
def enclosuresAt (place : Place) (body : List Stmt) : List Enclosure :=
  (ownersAt place body).map Owner.enclosure

end Stmt

/-- At a visit the open lists are, as far as jumps are concerned, those around its site. -/
theorem Visit.StandsIn.enclosures {body : List Stmt} {around : List Owner} {v : Visit}
    (h : v.StandsIn body around) : v.ctx.stack.owners.map Owner.enclosure
      = Stmt.enclosuresAt v.site.place body ++ around.map Owner.enclosure := by
  rw [← Owner.map_enclosure_asWritten, h.owners, List.map_append, Owner.map_enclosure_asWritten,
    Stmt.enclosuresAt]

namespace Visit

variable {v : Visit} {around : List Enclosure}

/-- The visit to a jump adds what is to be reported and what is to be told, and does nothing
else. -/
theorem analyze_of_jump? {jump : Jump} (isJump : v.stmt.jump? around = some jump)
    (isOpen : v.ctx.stack.owners.map Owner.enclosure = around) :
    v.stmt.analyze v.ctx
      = .done v.stmt { v.ctx with
          diagnostics := v.ctx.diagnostics ++ jump.found
          events := v.ctx.events ++ jump.told } := by
  obtain ⟨isStmt, rfl⟩ := Stmt.eq_of_jump? isJump
  rw [isStmt, Stmt.analyze, Simple.analyze, Simple.analyzeJump_eq isOpen.symm]
  rfl

/-- The visit to a jump finds and tells what is to be found and told, and a visit to anything else
finds nothing about jumps and tells nothing. -/
theorem judges (isOpen : v.ctx.stack.owners.map Owner.enclosure = around) :
    v.found.filter (·.problem.isAboutJump) = (v.stmt.jump? around).toList.flatMap Jump.found ∧
      v.told = (v.stmt.jump? around).toList.flatMap Jump.told := by
  cases isJump : v.stmt.jump? around with
  | none =>
    have noJump (kind keyword label) : v.stmt ≠ .simple (.jump kind keyword label) := by
      intro same
      rw [same, Stmt.jump?] at isJump
      cases isJump
    have lasting : Context.Lasting fun ctx => ctx.aboutJumps = [] ∧ ctx.events = [] := by
      refine ⟨fun _ h => h, fun token other h => ⟨?_, h.2⟩⟩
      simpa [Context.aboutJumps, other] using h.1
    have start : v.ctx.fresh.aboutJumps = [] ∧ v.ctx.fresh.events = [] := ⟨rfl, rfl⟩
    obtain ⟨noneFound, noneTold⟩ := v.stmt.checkOwn_lasting lasting noJump start
    refine ⟨noneFound, ?_⟩
    rw [told, Context.remarks, noneTold]
    rfl
  | some jump =>
    obtain ⟨isStmt, rfl⟩ := Stmt.eq_of_jump? isJump
    have checked : v.stmt.checkOwn v.ctx.fresh
        = { v.ctx.fresh with diagnostics := [] ++ jump.found, events := [] ++ jump.told } := by
      rw [isStmt]
      exact Simple.analyzeJump_eq isOpen.symm
    rw [found, told, Context.remarks, checked]
    simp [jump.filter_found, jump.filter_told]

end Visit

namespace Stmt

/-- **Jumps.**  The analysis of a body goes through its statements in order, to the end or up to a
fault.  What it finds about jumps, and what it tells apart from its way, is what is to be found and
told of the jumps it comes to, each judged by what is around it in the body and then around the
body.  At each of them it does that and nothing else: a misplaced jump and a label that is not around
have just one diagnostic, which reads as `Jump.Judged` says. -/
theorem jumps_judged_lexically (body : List Stmt) (ctx : Context) :
    let visits := visitsOfList 0 body ctx
    let outcome := analyzeList body ctx
    let jumpAt (v : Visit) : Option Jump :=
      v.stmt.jump? (enclosuresAt v.site.place body ++ ctx.stack.owners.map Owner.enclosure)
    let jumps := visits.filterMap jumpAt
    GoesThrough outcome.fault visits (sitesOfList 0 body) ∧
    outcome.ctx.aboutJumps = ctx.aboutJumps ++ jumps.flatMap Jump.found ∧
    outcome.ctx.remarks = ctx.remarks ++ jumps.flatMap Jump.told ∧
    (∀ jump ∈ jumps, jump.Judged) ∧
    ∀ v ∈ visits, stmtAt? v.site body = some v.stmt ∧
      ∀ jump ∈ jumpAt v, v.stmt.analyze v.ctx
        = .done v.stmt { v.ctx with
            diagnostics := v.ctx.diagnostics ++ jump.found
            events := v.ctx.events ++ jump.told } := by
  intro visits outcome jumpAt jumps
  have standsIn : ∀ v ∈ visits, v.StandsIn body ctx.stack.owners :=
    standsIn_of_mem_visitsOfList body ctx
  have attributes : ctx.Attributes visits outcome.ctx := attributes_visitsOfList 0 body ctx
  have isOpen (v : Visit) (mem : v ∈ visits) : v.ctx.stack.owners.map Owner.enclosure
      = enclosuresAt v.site.place body ++ ctx.stack.owners.map Owner.enclosure :=
    (standsIn v mem).enclosures
  have listed : jumps = visits.flatMap fun v => (jumpAt v).toList :=
    List.filterMap_eq_flatMap_toList ..
  refine ⟨goesThrough_visitsOfList 0 body ctx, ?_, ?_, fun jump _ => jump.judged,
    fun v mem => ⟨(standsIn v mem).stmt, ?_⟩⟩
  · rw [Context.aboutJumps, attributes.found, List.filter_append, List.filter_flatMap, listed,
      List.flatMap_assoc]
    exact congrArg (_ ++ ·) (List.flatMap_congr fun v mem => (v.judges (isOpen v mem)).1)
  · rw [attributes.told, listed, List.flatMap_assoc]
    exact congrArg (_ ++ ·) (List.flatMap_congr fun v mem => (v.judges (isOpen v mem)).2)
  · exact fun jump isJump => v.analyze_of_jump? isJump (isOpen v mem)

/-- In `outer: while (1) { switch (1) { if (1) { continue outer; break inner; } } } continue; break;`
the first jump is right, the label of the second is that of nothing around it, and the last two are
misplaced. -/
theorem jumps_judged_lexically_of_nest :
    let one : Expr := .value (.synthetic "1") (.typed .int) none
    let jump (kind : JumpKind) (label : Option Token) : Stmt :=
      .simple (.jump kind (.synthetic "j") label)
    let body : List Stmt :=
      [.breakable (.synthetic "while") (some (.synthetic "outer")) (.whileLoop one)
        [.breakable (.synthetic "switch") none (.switch one)
          [.ifElse (.synthetic "if") one
            [jump .continues (some (.synthetic "outer")), jump .breaks (some (.synthetic "inner"))]
            []]],
        jump .continues none, jump .breaks none]
    let ctx := Context.start default .empty default
    let outcome := analyzeList body ctx
    let first : Jump := ⟨.continues, .synthetic "j", some (.synthetic "outer"),
      [.other, .switch none, .loop (some "outer")]⟩
    let reports : List Diagnostic := [⟨.unknownLabel "inner", .synthetic "inner"⟩,
      ⟨.misplacedJump .continues, .synthetic "j"⟩, ⟨.misplacedJump .breaks, .synthetic "j"⟩]
    outcome.ctx.aboutJumps = reports ∧
      reports.map Diagnostic.message =
        ["label 'inner' is either not defined or invalid as the destination",
          "cannot continue (a continue statement is only allowed within the following statements: "
            ++ "for/do-while/while)",
          "cannot break (a break statement is only allowed within the following statements: "
            ++ "for/do-while/while/switch)"] ∧
      (∃ v ∈ visitsOfList 0 body ctx, v.site.place = [(0, .body), (0, .body), (0, .onTrue)] ∧
        v.site.index = 0 ∧ v.stmt.analyze v.ctx = .done v.stmt { v.ctx with
          diagnostics := v.ctx.diagnostics ++ first.found
          events := v.ctx.events ++ first.told }) ∧
      first.found = [] := by
  intro one jump body ctx outcome first reports
  let visits := visitsOfList 0 body ctx
  let v : Visit := visits[3]
  have visited : v ∈ visits := List.getElem_mem _
  obtain ⟨-, found, -, judged, atVisits⟩ := jumps_judged_lexically body ctx
  have isFirst : v.stmt.jump?
      (enclosuresAt v.site.place body ++ ctx.stack.owners.map Owner.enclosure)
      = some first := rfl
  have isRight : first.found = [] := by
    have reached := judged first (List.mem_filterMap.2 ⟨v, visited, isFirst⟩)
    have seen : first.Sees "outer" := by decide +kernel
    exact (reached.labelled (by decide +kernel) _ rfl seen).1
  refine ⟨found.trans ?_, rfl, ⟨v, visited, rfl, rfl, (atVisits v visited).2 first isFirst⟩,
    isRight⟩
  decide +kernel

end Stmt

end BodyCheck
