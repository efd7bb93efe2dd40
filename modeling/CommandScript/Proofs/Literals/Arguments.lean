import CommandScript.CommandLine.Startup
import CommandScript.Proofs.Aliases.Words
import CommandScript.Proofs.Literals.Survival
import CommandScript.Proofs.Targets.Quoted

/-! The commands that run further lines, with a quoted text as the argument. The line comes to its command as it stands,
and `parse` runs the script that the text names. `parse_string` offers the argument to the variables before it takes the
quotes off, so a bracket in the text is taken for that of an array, and the line between the quotes is not run. -/

namespace CommandScript

variable {σ : Type}

/-- A word that stands for itself: no scanner of a line stops in it and no keyword is found in it. -/
structure SoleWord (word : Text) : Prop where
  inert : word.all Text.isInert = true
  solid : ∀ c ∈ word, c ≠ ' ' ∧ AliasTable.isDelimiter c = false
  noKeyword : ∀ part ∈ word.tails, AliasTable.keywordLength part = 0
  noDefinition : ∀ n, AliasTable.blankDefinition (word ++ .char ' ' :: AliasTable.spaces n) =
    word ++ .char ' ' :: AliasTable.spaces n

namespace SoleWord

variable {word body : Text} (sole : SoleWord word)

include sole

theorem spaced (rest : Text) : (word ++ ([' '] : Text)).all Text.isInert = true ∧
    word ++ .char ' ' :: rest = word ++ ([' '] : Text) ++ rest := by
  constructor
  · rw [List.all_append, sole.inert]
    decide
  · simp

theorem apply_quoted {tables : List AliasTable} (undefined : ∀ table ∈ tables, table.has word = false)
    (clear : .char '"' ∉ body) : AliasTable.apply tables (word ++ .char ' ' :: Text.quoted body) =
      word ++ .char ' ' :: Text.quoted body := by
  have whole (rest : Text) := (sole.spaced rest).2
  have noKeyword (n : Nat) : AliasTable.blankKeywords (word ++ ([' '] : Text) ++ AliasTable.spaces n) =
      word ++ ([' '] : Text) ++ AliasTable.spaces n := by
    rw [← whole, AliasTable.blankKeywords_split (by decide) (by decide), AliasTable.blankKeywords_none sole.noKeyword,
      AliasTable.blankKeywords_spaces]
  have noDefinition (n : Nat) : AliasTable.blankDefinition (word ++ ([' '] : Text) ++ AliasTable.spaces n) =
      word ++ ([' '] : Text) ++ AliasTable.spaces n := by
    rw [← whole, sole.noDefinition]
  rw [whole]
  refine AliasTable.apply_quoted (AliasTable.mask_quoted (sole.spaced []).1 clear noKeyword noDefinition)
    fun shown among pairs => ?_
  have kept : AliasTable.replacement shown word = word :=
    AliasTable.replacement_kept fun table found => undefined table (among found)
  rw [List.zip_append rfl, List.append_assoc, List.zip_cons_cons, List.zip_nil_left, List.singleton_append,
    AliasTable.substitute_append (by decide), AliasTable.substitute_whole fun c member => (sole.solid c member).2,
    List.nil_append, kept, List.append_assoc, List.singleton_append]

theorem calls_quoted {command : Command} (named : Command.of? word = some command)
    (apart : word.head?.any Flow.isApart = true) (clear : .char '"' ∉ body) :
    Calls (word ++ .char ' ' :: Text.quoted body) command (Text.quoted body) := by
  have cut : Text.cutOrAll ' ' (word ++ .char ' ' :: Text.quoted body) = (word, Text.quoted body) := by
    rw [Text.cutOrAll, Text.cut?_word fun c member => (sole.solid c member).1]
    rfl
  obtain ⟨inert, whole⟩ := sole.spaced (Text.quoted body)
  obtain ⟨c, tail, rfl⟩ : ∃ c tail, word = c :: tail := by
    cases word with
    | nil => cases apart
    | cons c tail => exact ⟨c, tail, rfl⟩
  have visible : Text.isBlank c = false := by
    have first : c = 's' ∨ c = 'p' := by simpa [Flow.isApart] using apart
    rcases first with rfl | rfl <;> decide
  exact
    { single := whole ▸ Text.splitStatements_quoted visible inert clear
      noComment := whole ▸ Text.stripComment_quoted inert clear
      trimmed := whole ▸ Text.trim_quoted visible _ body
      balanced := whole ▸ Text.checkBalance_quoted inert clear
      apart
      word := by rw [cut, named]
      arguments := by rw [cut, Text.trim_quoted_alone] }

end SoleWord

theorem soleWord_running {word : Text} (running : word ∈ (["parse", "parse_string"] : List Text)) : SoleWord word := by
  rcases List.mem_pair.mp running with rfl | rfl <;>
    exact ⟨by decide, List.forall_mem_iff_forall_getElem.mpr (by decide), by decide, fun _ => rfl⟩

/-- A quoted text as the name of a variable: a bracket in it is the start of an index, and what follows the index is at
least the closing quote. -/
theorem Store.get?_quoted (store : Store) (body : Text) :
    store.get? (Text.quoted body) =
      match Text.cut? '[' body with
      | none => .ok (store.lookup (Text.quoted body))
      | some (_, inside) =>
        Store.fail (if .char ']' ∈ inside then .afterIndex (Text.quoted body) else .openIndex (Text.quoted body)) := by
  cases found : Text.cut? '[' body with
  | none =>
      have noBracket : .char '[' ∉ Text.quoted body := by
        simpa [Text.quoted] using Text.cut?_eq_none.mp found
      rw [Store.get?, Text.cut?_eq_none.mpr noBracket, Text.trim_quoted_alone]
  | some sides =>
      obtain ⟨before, inside⟩ := sides
      have whole : Text.quoted body = (.char '"' :: before) ++ .char '[' :: (inside ++ (['"'] : Text)) := by
        rw [Text.quoted, Text.cut?_append found]
        simp
      have cut : Text.cut? '[' (Text.quoted body) = some (.char '"' :: before, inside ++ (['"'] : Text)) := by
        rw [whole]
        refine Text.cut?_word fun c member => ?_
        rcases List.mem_cons.mp member with rfl | later
        · decide
        · exact Text.cut?_before found c later
      simp only [Store.get?, cut]
      split
      · rename_i missing
        have unclosed : .char ']' ∉ inside := fun member => Text.cut?_eq_none.mp missing (by simp [member])
        rw [if_neg unclosed]
      · rename_i index after closed
        have split := Text.cut?_append closed
        -- the closing quote stands behind the bracket
        have ends : (.char ']' :: after).getLast? = some (.char '"') := by
          rw [← List.getLast?_append_of_ne_nil index (by simp), ← split, List.getLast?_concat]
        have last : .char '"' ∈ after := by
          simpa using List.mem_of_getLast? ends
        have visible : Text.trim after ≠ [] := by
          obtain ⟨front, back, rfl⟩ := List.append_of_mem last
          rw [Text.trim_around (by decide)]
          simp
        have inner : .char ']' ∈ inside := by
          have member : .char ']' ∈ inside ++ (['"'] : Text) := by simp [split]
          simpa using member
        rw [if_pos visible, if_pos inner]

namespace Interpreter

variable {env : Env σ} {session : Session σ}

/-- `parse_string` of a quoted text, where statements are run and `parse_string` is no alias. The text between
the quotes is run as a line, three calls deeper, if it has no opening bracket and no variable has the quoted
text as its name. With a bracket nothing is run, and what such a variable holds is run in place of the text. -/
theorem statement_parseString (env : Env σ) (depth : Nat) (session : Session σ)
    (notSkipping : session.frame.conditions.head?.any Branch.isSkipping = false)
    (notCollecting : session.frame.loops.head?.any Loop.isCollecting = false)
    (notLeaving : session.frame.loops.head?.any (·.mode = .leaving) = false)
    (undefined : ∀ table ∈ session.frame.aliasTables, table.has "parse_string" = false)
    (body : Text) (clear : .char '"' ∉ body) :
    statement env (execLine env depth) ("parse_string " ++ Text.quoted body) session =
      match Text.cut? '[' body, session.store.lookup (Text.quoted body) with
      | none, none => Run.deeper 3 (execLine env depth body) session
      | none, some stored => Run.deeper 3 (execLine env depth (Text.stripQuotes stored)) session
      | some (_, inside), _ =>
        .error
          (.error
            { cause := .store (if .char ']' ∈ inside then .afterIndex (Text.quoted body)
              else .openIndex (Text.quoted body)) })
          session := by
  have sole : SoleWord "parse_string" := soleWord_running (by simp)
  have calls : Calls ("parse_string" ++ .char ' ' :: Text.quoted body) .parseString (Text.quoted body) :=
    sole.calls_quoted rfl rfl clear
  have reached := calls.statement_eq notSkipping notCollecting notLeaving (sole.apply_quoted undefined clear) env
    (execLine env depth)
  have filled : (Text.quoted body).isEmpty = false := rfl
  have read := session.store.get?_quoted body
  refine reached.trans ?_
  simp only [runCommand, parseString, Command.require, filled, Bool.false_eq_true, if_false, Run.readVariable, bind,
    EStateM.bind, pure, EStateM.pure, EStateM.get_apply, read]
  cases Text.cut? '[' body with
  | some sides => rfl
  | none =>
      cases session.store.lookup (Text.quoted body) with
      | none => simp only [Run.ofFailure, Run.ofExcept, pure, EStateM.pure, Option.getD_none, Text.stripQuotes_quoted]
      | some stored => rfl

def freshSession : Session Unit := Session.start {} ()

/-- A comment, which does nothing as a line, is refused as soon as it has a bracket. -/
theorem statement_parseString_comment :
    statement {} (execLine {} 1) "parse_string \"# a\"" freshSession =
        Run.deeper 3 (execLine {} 1 "# a") freshSession ∧
      execLine {} 1 "# [" freshSession = .ok () freshSession ∧
      statement {} (execLine {} 1) "parse_string \"# [\"" freshSession =
        .error (.error { cause := .store (.openIndex "\"# [\"") }) freshSession := by
  have single : Text.splitStatements "# [" = .ok ["# ["] := by cbv
  have nothing : Text.stripComment "# [" = [] := by cbv
  refine ⟨?_, ?_, ?_⟩
  · exact statement_parseString {} 1 freshSession rfl rfl rfl (by decide) "# a" (by decide)
  · have skipped (exec : Text → Run Unit Unit) : statement {} exec "# [" freshSession = .ok () freshSession := by
      simp only [statement, nothing]
      rfl
    simp only [execLine, single, statements, Run.ofMalformed, Run.ofExcept, List.forM_eq_forM, List.forM_cons,
      List.forM_nil, bind, EStateM.bind, pure, EStateM.pure, skipped]
  · exact statement_parseString {} 1 freshSession rfl rfl rfl (by decide) "# [" (by decide)

end Interpreter

end CommandScript
