import CommandScript.Proofs.Grammar.Accepted
import CommandScript.Proofs.Prefixes.Marks

/-! Marking in pieces. What comes before an operand is marked without it, and the inside of a group is marked as it is
alone: only whether an operand may start there matters, not what stands before it. Errors name what stands before, so
the results are compared without the errors. -/

namespace CommandScript

namespace Lexeme

theorem collapseSigns_snoc {last : Lexeme} (noSign : last.isSign = false) (before : List Lexeme) :
    collapseSigns (before ++ [last]) = collapseSigns before ++ [last] := by
  induction before with
  | nil => exact collapseSigns_other noSign []
  | cons first more ih =>
      rw [List.cons_append, collapseSigns.eq_def, collapseSigns.eq_def (first :: more)]
      dsimp only
      rw [ih]
      cases collapseSigns more with
      | nil =>
          cases first with
          | operator op spelling =>
              cases last with
              | operator op' spelling' =>
                  have other : op'.isSign = false := noSign
                  simp [other]
              | _ => rfl
          | _ => rfl
      | cons next others =>
          cases first with
          | operator op spelling =>
              cases next with
              | operator op' spelling' =>
                  dsimp only [List.cons_append]
                  split <;> rfl
              | _ => rfl
          | _ => rfl

theorem collapseSigns_split {middle : Lexeme} (noSign : middle.isSign = false) (before rest : List Lexeme) :
    collapseSigns (before ++ middle :: rest) = collapseSigns before ++ middle :: collapseSigns rest := by
  have apart : collapseSigns ((before ++ [middle]) ++ rest) = collapseSigns (before ++ [middle]) ++
      collapseSigns rest := by
    refine collapseSigns_append fun last found => ?_
    rw [List.getLast?_concat] at found
    obtain rfl := Option.some.inj found
    exact noSign
  rw [collapseSigns_snoc noSign] at apart
  simpa using apart

def EndInOperator (lexemes : List Lexeme) : Prop := ∀ last ∈ lexemes.getLast?, last.operator?.isSome = true

theorem EndInOperator.collapseSigns {lexemes : List Lexeme} (ends : EndInOperator lexemes) :
    EndInOperator (collapseSigns lexemes) := by
  induction lexemes with
  | nil => nofun
  | cons first more ih =>
      have inner := ih fun last found => ends last (by
        rw [List.getLast?_cons, Option.mem_def.mp found]
        rfl)
      unfold Lexeme.collapseSigns
      split
      · rename_i op spelling op' spelling' others collapsed
        rw [collapsed] at inner
        split
        · cases others with
          | nil =>
              rintro _ ⟨⟩
              unfold joinSigns
              split <;> rfl
          | cons third others =>
              intro last found
              rw [List.getLast?_cons_cons] at found
              exact inner last (by rwa [List.getLast?_cons_cons])
        · intro last found
          rw [List.getLast?_cons_cons] at found
          exact inner last found
      · intro last found
        rw [List.getLast?_cons] at found
        cases collapsed : Lexeme.collapseSigns more with
        | nil =>
            have empty : more = [] := by
              by_contra filled
              exact collapseSigns_filled filled collapsed
            subst empty
            exact ends last (by simpa [collapsed] using found)
        | cons next others =>
            rw [collapsed] at inner found
            exact inner last (by simpa [List.getLast?_cons] using found)

end Lexeme

namespace Token

variable {previous : Option Lexeme} {marks : Option Marks}

/-- Marking has come to the end of some lexemes, with their tokens, the last of these, and the marks for the
next one. -/
structure Front (previous : Option Lexeme) (marks : Option Marks) (lexemes : List Lexeme) (tokens : List Token)
    (final : Option Lexeme) (pending : Option Marks) : Prop where
  goesOn : ∀ rest, mark previous marks (lexemes ++ rest) = (mark final pending rest).map (tokens ++ ·)
  last : final = (tokens.getLast?.map (·.lexeme)).or previous
  start : pending.isSome = true → atOperandStart final = true
  ended : pending = none → final = lexemes.getLast?.or previous

theorem mark_front (start : marks.isSome = true → atOperandStart previous = true) (lexemes : List Lexeme) :
    (∃ error, ∀ rest, mark previous marks (lexemes ++ rest) = .error error) ∨
      ∃ tokens final pending, Front previous marks lexemes tokens final pending := by
  induction lexemes generalizing previous marks with
  | nil =>
      refine .inr ⟨[], previous, marks, fun rest => ?_, rfl, start, fun _ => rfl⟩
      rw [List.nil_append]
      cases mark previous marks rest <;> rfl
  | cons lexeme lexemes ih =>
      rcases mark_cons previous marks lexeme with ⟨op, -, -, here, marked⟩ | ⟨error, refused⟩ | ⟨token, same, taken⟩
      · rcases @ih previous (some (Marks.add marks op)) fun _ => here
          with ⟨error, refused⟩ | ⟨tokens, final, pending, front⟩
        · exact .inl ⟨error, fun rest => (marked _).trans (refused rest)⟩
        · refine .inr ⟨tokens, final, pending, fun rest => (marked _).trans (front.goesOn rest), front.last,
            front.start, ?_⟩
          intro none
          have ended := front.ended none
          cases lexemes with
          | nil =>
              -- the mark just added would still be pending
              have goesOn := front.goesOn []
              subst none
              simp only [List.nil_append, mark] at goesOn
              cases goesOn
          | cons second more => rwa [List.getLast?_cons_cons]
      · exact .inl ⟨error, fun rest => refused _⟩
      · rcases @ih (some lexeme) none (by simp) with ⟨error, refused⟩ | ⟨tokens, final, pending, front⟩
        · exact .inl ⟨error, fun rest => by rw [List.cons_append, taken, refused]; rfl⟩
        · refine .inr ⟨token :: tokens, final, pending, fun rest => ?_, ?_, front.start, fun none => ?_⟩
          · rw [List.cons_append, taken, front.goesOn]
            cases mark final pending rest <;> rfl
          · rw [front.last, List.getLast?_cons]
            cases tokens.getLast? <;> simp [same]
          · rw [front.ended none, List.getLast?_cons]
            cases lexemes.getLast? <;> rfl

/-- What stands before matters to marking only as far as an operand may start there. -/
theorem mark_congr {other : Option Lexeme} (same : atOperandStart previous = atOperandStart other)
    (lexemes : List Lexeme) (tokens : List Token) :
    mark previous marks lexemes = .ok tokens ↔ mark other marks lexemes = .ok tokens := by
  induction lexemes generalizing marks with
  | nil => rfl
  | cons lexeme rest ih =>
      rw [mark.eq_def, mark.eq_def other]
      simp only [same]
      split
      · exact ih
      · split
        · simp
        · rfl

theorem map_append_eq_ok {ε α : Type} {front : List α} {result : Except ε (List α)} {all : List α} :
    result.map (front ++ ·) = .ok all ↔ ∃ rest, result = .ok rest ∧ all = front ++ rest := by
  cases result with
  | error error => exact ⟨nofun, nofun⟩
  | ok rest =>
      constructor
      · intro given
        exact ⟨rest, rfl, (Except.ok.inj given).symm⟩
      · rintro ⟨_, ⟨⟩, rfl⟩
        rfl

theorem mark_close {spelling : Text} {rest : List Lexeme} {tokens : List Token} :
    mark previous marks (.operator .closeParen spelling :: rest) = .ok tokens ↔
      mark previous marks [] = .ok [] ∧ ∃ others, mark (some (.operator .closeParen spelling)) none rest = .ok others ∧
        tokens = { lexeme := .operator .closeParen spelling } :: others := by
  have noMark : ((Lexeme.operator .closeParen spelling).operator?.filter
    fun op => isMark op && atOperandStart previous) =
      none := rfl
  have noBang : (Lexeme.operator .closeParen spelling).isOperator .not = false := rfl
  rw [mark.eq_def]
  simp only [noMark, noBang]
  cases marks with
  | none =>
      constructor
      · intro marked
        exact ⟨rfl, map_cons_eq_ok.mp marked⟩
      · rintro ⟨-, others, later, rfl⟩
        exact map_cons_eq_ok.mpr ⟨others, later, rfl⟩
  | some found =>
      constructor
      · nofun
      · rintro ⟨ended, -⟩
        cases ended

theorem mark_group (start : atOperandStart previous = true) {lexemes rest : List Lexeme} {spelling : Text}
    {all : List Token} :
    mark previous none (lexemes ++ .operator .closeParen spelling :: rest) = .ok all ↔
      ∃ tokens others, mark none none lexemes = .ok tokens ∧
        mark (some (.operator .closeParen spelling)) none rest = .ok others ∧
        all = tokens ++ { lexeme := .operator .closeParen spelling } :: others := by
  have alone (tokens : List Token) : mark none none lexemes = .ok tokens ↔ mark previous none lexemes = .ok tokens :=
    mark_congr (by rw [start]; rfl) lexemes tokens
  rcases @mark_front previous none nofun lexemes with ⟨error, refused⟩ | ⟨tokens, final, pending, front⟩
  · have here := refused []
    rw [List.append_nil] at here
    constructor
    · intro marked
      rw [refused] at marked
      cases marked
    · rintro ⟨tokens, others, inside, -⟩
      rw [alone, here] at inside
      cases inside
  · have here := front.goesOn []
    rw [List.append_nil] at here
    rw [front.goesOn, map_append_eq_ok]
    constructor
    · rintro ⟨more, marked, rfl⟩
      obtain ⟨ended, others, later, rfl⟩ := mark_close.mp marked
      refine ⟨tokens, others, ?_, later, rfl⟩
      rw [alone, here, ended]
      simp [Except.map]
    · rintro ⟨inside, others, known, later, rfl⟩
      rw [alone, here, map_append_eq_ok] at known
      obtain ⟨more, ended, rfl⟩ := known
      have nothing : more = [] := by
        unfold mark at ended
        split at ended
        · cases ended
        · exact (Except.ok.inj ended).symm
      subst nothing
      exact ⟨_, mark_close.mpr ⟨ended, others, later, rfl⟩, by simp⟩

theorem mark_at {before : List Lexeme} (ends : Lexeme.EndInOperator before) :
    (∃ error, ∀ rest, mark none none (before ++ rest) = .error error) ∨
      ∃ (front : List Token) (negated inverted : Bool),
        Lexeme.EndInOperator (front.map (·.lexeme)) ∧
        ∀ (first : Lexeme) (rest : List Lexeme), startsOperand first = true → first.isQuoted = false →
          mark none none (before ++ first :: rest) =
            (mark (some first) none rest).map (front ++ ⟨first, negated, inverted⟩ :: ·) := by
  rcases @mark_front none none nofun before with ⟨error, refused⟩ | ⟨tokens, final, pending, front⟩
  · exact .inl ⟨error, refused⟩
  · refine .inr ⟨tokens, pending.any (·.negated), pending.any (·.inverted), ?_, fun first rest starts noQuote => ?_⟩
    · intro last found
      rw [List.getLast?_map] at found
      have known : final = some last := by rw [front.last, Option.mem_def.mp found]; rfl
      cases pending with
      | none =>
          have here := front.ended rfl
          rw [known, Option.or_none] at here
          exact ends last here.symm
      | some marks =>
          have start := front.start rfl
          rw [known] at start
          cases last with
          | operator op spelling => rfl
          | _ => cases start
    · rw [front.goesOn, mark_start starts noQuote]
      cases mark (some first) none rest <;> rfl

end Token

end CommandScript
