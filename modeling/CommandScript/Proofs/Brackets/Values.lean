import CommandScript.Proofs.Brackets.Groups
import CommandScript.Proofs.Comments.Stripping
import CommandScript.Proofs.Integers.Numbers
import CommandScript.Proofs.Structured.Passing
import CommandScript.Proofs.Text.Casing

/-! The values of texts with a bare bracket or a group. What is in the bracket is read as if it stood alone: a
quoted text there is no argument, also if the bracket is one, and it has no value. Nothing else tells a bracket
from a group. -/

namespace CommandScript

variable {σ : Type} {env : Env σ} {session after : Session σ}

namespace Expr

variable {text : Text}

theorem read_bind {α : Type} {next : Expr → Run σ α} {value : α} :
    (read text >>= next) session = .ok value after ↔
      ∃ e, parse text = .ok e ∧ session.depth + e.callsNeeded ≤ Run.callLimit ∧ next e session = .ok value after := by
  cases parsed : parse text with
  | error error =>
      have refused : read text session = .error (.error { cause := .malformed error }) session := by
        simp only [read, parsed]
        rfl
      simp only [bind, EStateM.bind, refused]
      constructor
      · rintro ⟨⟩
      · rintro ⟨_, ⟨⟩, -⟩
  | ok e =>
      have known : read text session = Run.deeper e.callsNeeded (pure e) session := by
        simp only [read, parsed]
        rfl
      rw [Run.deeper_eq] at known
      by_cases limit : Run.callLimit < session.depth + e.callsNeeded
      · rw [if_pos limit] at known
        simp only [bind, EStateM.bind, known]
        constructor
        · rintro ⟨⟩
        · rintro ⟨_, ⟨⟩, room, -⟩
          omega
      · rw [if_neg limit] at known
        simp only [bind, EStateM.bind, known]
        constructor
        · intro ran
          exact ⟨e, rfl, by omega, ran⟩
        · rintro ⟨_, ⟨⟩, -, ran⟩
          exact ran

structure Compound (text : Text) : Prop where
  noNumber : Number.isNumber (Text.trim text) = false
  noTruth : ¬(Text.lower (Text.trim text) = "true" ∨ Text.lower (Text.trim text) = "false")

namespace Compound

variable (compound : Compound text)

include compound

theorem valueOf_eq_ok {value : Value} :
    valueOf env text session = .ok value after ↔
      ∃ e, parse (Text.trim text) = .ok e ∧ session.depth + e.callsNeeded ≤ Run.callLimit ∧
        eval env false e session = .ok value after := by
  rw [valueOf, compound.noNumber, if_neg Bool.false_ne_true, if_neg compound.noTruth]
  exact read_bind

theorem condition_eq_ok {flag : Bool} :
    condition env text session = .ok flag after ↔
      ∃ e, parse (Text.trim text) = .ok e ∧ session.depth + e.callsNeeded ≤ Run.callLimit ∧
        (eval env true e >>= fun value => truthOfValue value (Text.trim text)) session = .ok flag after := by
  have noNumber : Number.parseDecimal (Text.trim text) = none := by
    simpa [Number.isNumber] using compound.noNumber
  rw [condition, noNumber]
  exact read_bind

end Compound

theorem compound_mark {mark : CodePoint} (isMark : mark = '(' ∨ mark = '[') {before after : Text} :
    Compound (before ++ mark :: after) := by
  have visible : Text.isBlank mark = false := by rcases isMark with rfl | rfl <;> rfl
  have inside : mark ∈ Text.trim (before ++ mark :: after) := by
    rw [Text.trim_around visible]
    exact List.mem_append_right _ List.mem_cons_self
  have lowered {word : Text} (plain : ∀ c ∈ word, c.toNat < 128 ∧ c ≠ 'k' ∧ c ≠ '\x00')
    (without : mark.toLower ∉ word) :
      Text.lower (Text.trim (before ++ mark :: after)) ≠ word := by
    intro same
    rw [← Text.lower_eq_ascii same plain] at without
    exact without (List.mem_map_of_mem inside)
  constructor
  · exact Number.isNumber_foreign (by rcases isMark with rfl | rfl <;> decide) (Text.trim_trim _) inside
  · rintro (same | same)
    · exact lowered (by decide) (by rcases isMark with rfl | rfl <;> decide) same
    · exact lowered (by decide) (by rcases isMark with rfl | rfl <;> decide) same

theorem truthOfValue_ok {value : Value} (text other : Text) {flag : Bool} :
    truthOfValue value text session = .ok flag after ↔ truthOfValue value other session = .ok flag after := by
  unfold truthOfValue
  cases value with
  | text s =>
      dsimp only
      cases truthOf s with
      | none => exact ⟨nofun, nofun⟩
      | some flag => exact Iff.rfl
  | buffer buffer => exact ⟨nofun, nofun⟩
  | _ => exact Iff.rfl

theorem condition_regrouped {inner other : Text} {e e' : Expr} (compound : Compound text) (compound' : Compound other)
    (parsed : parse (Text.trim text) = .ok e) (parsed' : parse (Text.trim other) = .ok e')
    (regrouped : Regrouped inner e e') {flag : Bool} :
    condition env text session = .ok flag after ↔
      condition env other session = .ok flag after ∧ session.depth + e.callsNeeded ≤ Run.callLimit := by
  rw [compound.condition_eq_ok, compound'.condition_eq_ok]
  have truth : (eval env true e >>= fun value => truthOfValue value (Text.trim text)) session = .ok flag after ↔
      (eval env true e' >>= fun value => truthOfValue value (Text.trim other)) session = .ok flag after := by
    simp only [regrouped.condition_eq, bind, EStateM.bind]
    cases eval env true e' session with
    | ok value middle => exact truthOfValue_ok _ _
    | error exit middle => exact Iff.rfl
  constructor
  · rintro ⟨tree, known, room, ran⟩
    obtain rfl := Except.ok.inj (parsed.symm.trans known)
    have less := regrouped.callsNeeded_le
    exact ⟨⟨e', parsed', by omega, truth.mp ran⟩, room⟩
  · rintro ⟨⟨tree, known, -, ran⟩, room⟩
    obtain rfl := Except.ok.inj (parsed'.symm.trans known)
    exact ⟨e, parsed, room, truth.mpr ran⟩

end Expr

theorem Lexeme.scan_trimLeft (s : Text) : scan (Text.trimLeft s) = scan s := by
  induction s with
  | nil => rfl
  | cons c rest ih =>
      by_cases blank : Text.isBlank c = true
      · rw [Text.trimLeft, List.dropWhile_cons_of_pos blank, scan_white blank]
        exact ih
      · rw [Text.trimLeft, List.dropWhile_cons_of_neg blank]

namespace BareBracket

variable {before inner : Text} {items : List Lexeme} (bare : BareBracket before inner items)

include bare

theorem trimmed : BareBracket (Text.trimLeft before) inner items where
  scanned := by rw [Lexeme.scan_trimLeft, bare.scanned]
  ends := bare.ends
  closed := bare.closed
  plain := bare.plain
  balanced := bare.balanced

/-- The two texts are read into trees that differ in the group alone, or neither is read. -/
theorem parse_cases (rest : Text) :
    (∃ first second, Expr.parse (Text.trim (Text.inBrackets before inner rest)) = .ok first ∧
      Expr.parse (Text.trim (Text.inParens before inner rest)) = .ok second ∧ Expr.Regrouped inner first second) ∨
    ∀ e, Expr.parse (Text.trim (Text.inBrackets before inner rest)) ≠ .ok e ∧
      Expr.parse (Text.trim (Text.inParens before inner rest)) ≠ .ok e := by
  have brackets : Text.trim (Text.inBrackets before inner rest) =
      Text.inBrackets (Text.trimLeft before) inner (Text.trimRight rest) := by
    have trimmed := Text.trim_around (c := ']') rfl (before ++ .char '[' :: inner) rest
    rw [Text.trimLeft_before rfl] at trimmed
    simpa [Text.inBrackets] using trimmed
  have parens : Text.trim (Text.inParens before inner rest) =
      Text.inParens (Text.trimLeft before) inner (Text.trimRight rest) := by
    have trimmed := Text.trim_around (c := ')') rfl (before ++ .char '(' :: inner) rest
    rw [Text.trimLeft_before rfl] at trimmed
    simpa [Text.inParens] using trimmed
  rw [brackets, parens]
  by_cases found : ∃ e, Expr.parse (Text.inBrackets (Text.trimLeft before) inner (Text.trimRight rest)) = .ok e
  · obtain ⟨e, parsed⟩ := found
    obtain ⟨other, known, regrouped⟩ := bare.trimmed.parse_parens parsed
    exact .inl ⟨e, other, parsed, known, regrouped⟩
  · refine .inr fun e => ⟨fun parsed => found ⟨e, parsed⟩, fun parsed => ?_⟩
    obtain ⟨other, known, -⟩ := bare.trimmed.parse_brackets parsed
    exact found ⟨other, known⟩

end BareBracket

/-- A bare bracket is a group, but for the quoted texts of a bracket in the arguments of a call; and it takes
more of the calls that the language allows. -/
theorem value_bareBracket {before inner : Text} {items : List Lexeme} (bare : BareBracket before inner items)
    (rest : Text)
    (env : Env σ) (session later : Session σ) :
    (∀ flag, Expr.condition env (Text.inBrackets before inner rest) session = .ok flag later ↔
      Expr.condition env (Text.inParens before inner rest) session = .ok flag later ∧
        ∀ e, Expr.parse (Text.trim (Text.inBrackets before inner rest)) = .ok e →
          session.depth + e.callsNeeded ≤ Run.callLimit) ∧
    (∀ value, Expr.valueOf env (Text.inBrackets before inner rest) session = .ok value later ↔
      Expr.valueOf env (Text.inParens before inner rest) session = .ok value later ∧
        ∀ e, Expr.parse (Text.trim (Text.inBrackets before inner rest)) = .ok e →
          session.depth + e.callsNeeded ≤ Run.callLimit ∧ ¬e.QuotesInCall inner) := by
  have brackets : Expr.Compound (Text.inBrackets before inner rest) := Expr.compound_mark (.inr rfl)
  have parens : Expr.Compound (Text.inParens before inner rest) := Expr.compound_mark (.inl rfl)
  rcases bare.parse_cases rest with ⟨first, second, parsed, parsed', regrouped⟩ | refused
  · have only {P : Expr → Prop} :
        (∀ e, Expr.parse (Text.trim (Text.inBrackets before inner rest)) = .ok e → P e) ↔ P first := by
      simp [parsed]
    constructor
    · intro flag
      rw [only]
      exact Expr.condition_regrouped brackets parens parsed parsed' regrouped
    · intro value
      rw [brackets.valueOf_eq_ok, parens.valueOf_eq_ok, only]
      constructor
      · rintro ⟨e, known, room, ran⟩
        obtain rfl := Except.ok.inj (parsed.symm.trans known)
        -- a quoted text in a bracket leaves the whole tree without a value
        have noQuotes : ¬first.QuotesInCall inner := fun quotes =>
          quotes.bare.noValue (Expr.parse_shaped parsed) env session value later ran
        have less := regrouped.callsNeeded_le
        exact ⟨⟨second, parsed', by omega, regrouped.value_eq env noQuotes ▸ ran⟩, room, noQuotes⟩
      · rintro ⟨⟨e, known, -, ran⟩, room, noQuotes⟩
        obtain rfl := Except.ok.inj (parsed'.symm.trans known)
        exact ⟨first, parsed, room, regrouped.value_eq env noQuotes ▸ ran⟩
  · constructor
    · intro flag
      rw [brackets.condition_eq_ok, parens.condition_eq_ok]
      constructor
      · rintro ⟨e, known, -⟩
        exact absurd known (refused e).1
      · rintro ⟨⟨e, known, -⟩, -⟩
        exact absurd known (refused e).2
    · intro value
      rw [brackets.valueOf_eq_ok, parens.valueOf_eq_ok]
      constructor
      · rintro ⟨e, known, -⟩
        exact absurd known (refused e).1
      · rintro ⟨⟨e, known, -⟩, -⟩
        exact absurd known (refused e).2

/-- `substr(('abc'), 0, 2)` has a value, and `substr(['abc'], 0, 2)` has none. -/
theorem value_bareBracket_quoted :
    BareBracket "substr(" "'abc'" [.term "substr" none, .operator .openParen "("] ∧
      Expr.valueOf {} "substr(('abc'), 0, 2)" (Session.start {} ()) = .ok (.text "ab") (Session.start {} ()) ∧
      ∀ value later, Expr.valueOf {} "substr(['abc'], 0, 2)" (Session.start {} ()) ≠ .ok value later := by
  have bare : BareBracket "substr(" "'abc'" [.term "substr" none, .operator .openParen "("] := by
    refine ⟨by cbv, by rintro _ ⟨⟩; rfl, by decide +kernel, by decide +kernel, by cbv⟩
  have parsed : Expr.parse "substr(['abc'], 0, 2)" =
      .ok (.call "substr" [.group true (.quoted "abc" false), .term "0", .term "2"]) := by cbv
  refine ⟨bare, ?_, fun value later ran => ?_⟩
  · have compound : Expr.Compound "substr(('abc'), 0, 2)" :=
      @Expr.compound_mark '(' (.inl rfl) "substr" "('abc'), 0, 2)"
    have value : Expr.eval {} false (.call "substr" [.group false (.quoted "abc" true), .term "0", .term "2"])
        (Session.start {} ()) = .ok (.text "ab") (Session.start {} ()) := rfl
    exact compound.valueOf_eq_ok.mpr ⟨_, by cbv, by decide, value⟩
  · have alike := value_bareBracket bare ", 0, 2)" {} (Session.start {} ()) later
    refine (((alike.2 value).mp ran).2 _ parsed).2 ?_
    exact ⟨.argument "substr" [] .hole [.term "0", .term "2"], { lexeme := .quoted [] }, .quoted "abc" false, by cbv,
      .quoted "abc", rfl, rfl⟩

end CommandScript
