import CommandScript.Interpreter
import CommandScript.Proofs.Text.Casing

/-! The roles that lines play in blocks. The conditional stack and the counter of open blocks each have
their own way to recognise a line; here they are shown to agree. -/

namespace CommandScript

namespace Flow

variable {line : Text}

def leads (letter : CodePoint) (line : Text) : Prop := (Text.lower line).head? = some letter

theorem leads_unique {first second : CodePoint} (one : leads first line) (other : leads second line) :
    first = second := Option.some.inj (one.symm.trans other)

theorem head_of_trimLeft {c : CodePoint} {rest : Text} (trimmed : Text.trimLeft (c :: rest) = c :: rest) :
    Text.isBlank c = false := by
  cases blank : Text.isBlank c with
  | false => rfl
  | true =>
      have shorter : (Text.trimLeft (c :: rest)).length ≤ rest.length := by
        simpa [Text.trimLeft, blank] using (List.dropWhile_suffix Text.isBlank).length_le
      rw [trimmed, List.length_cons] at shorter
      omega

theorem leads_of_isForeach (trimmed : Text.trimLeft line = line) (opens : isForeach line) :
    leads 'f' line := by
  cases line with
  | nil => simp [isForeach, Text.lower, Text.lowerAfter] at opens
  | cons c rest =>
      have visible := head_of_trimLeft trimmed
      simp only [isForeach, List.filter_cons, visible, Bool.not_false, ↓reduceIte, List.take_succ_cons,
        decide_eq_true_eq] at opens
      unfold leads
      rw [Text.lower_head, ← Text.lower_head c, opens]
      rfl

theorem leads_of_isWordLine {word : Text} {first : CodePoint} {more : Text} (spelled : word = first :: more)
    (reads : isWordLine word line) : leads first line := by
  subst spelled
  simp only [isWordLine, Bool.or_eq_true, decide_eq_true_eq] at reads
  rcases reads with same | starts
  · simp [leads, same]
  · obtain ⟨rest, whole⟩ := List.isPrefixOf_iff_prefix.mp starts
    simp [leads, ← whole]

theorem leads_of_opensIf {letter : CodePoint} (trimmed : Text.trimLeft line = line) (opens : opensIf line)
    (other : letter ≠ 'i') (plain : letter.toNat < 128) : ¬leads letter line := by
  unfold opensIf at opens
  rw [trimmed] at opens
  cases line with
  | nil => simp [Text.afterKeyword?] at opens
  | cons c rest =>
      have stands : Text.standsFor 'i' c := by
        cases found : Text.standsFor 'i' c with
        | true => rfl
        | false => simp [Text.afterKeyword?, found] at opens
      unfold leads
      rw [Text.lower_head]
      exact Text.lower_standsFor_i stands other plain

theorem lower_of_else {rest : Text} (starts : Text.afterKeyword? "else" line = some rest) :
    ∃ more, Text.lower line = .char 'e' :: .char 'l' :: more := by
  match line, starts with
  | [], starts => simp [Text.afterKeyword?] at starts
  | [c], starts =>
      cases one : Text.standsFor 'e' c <;> simp [Text.afterKeyword?, one] at starts
  | first :: second :: tail, starts =>
      have letters : Text.standsFor 'e' first ∧ Text.standsFor 'l' second := by
        cases one : Text.standsFor 'e' first with
        | false => simp [Text.afterKeyword?, one] at starts
        | true =>
            cases other : Text.standsFor 'l' second with
            | false => simp [Text.afterKeyword?, one, other] at starts
            | true => exact ⟨rfl, rfl⟩
      obtain ⟨ascii, small⟩ := Text.lower_standsFor letters.1 (by decide) (by decide) (by decide) (by decide)
      obtain ⟨ascii', small'⟩ := Text.lower_standsFor letters.2 (by decide) (by decide) (by decide) (by decide)
      refine ⟨Text.lowerAfter [second, first] tail, ?_⟩
      rw [Text.lower, Text.lower_ascii _ _ _ ascii, Text.lower_ascii _ _ _ ascii', small, small']

theorem afterKeyword?_append (word more : Text) (s : Text) :
    Text.afterKeyword? (word ++ more) s = (Text.afterKeyword? word s).bind (Text.afterKeyword? more) := by
  induction word generalizing s with
  | nil => rfl
  | cons letter word ih =>
      cases s with
      | nil => rfl
      | cons c s =>
          simp only [List.cons_append, Text.afterKeyword?]
          split
          · exact ih s
          · rfl

theorem lower_of_continuing (trimmed : Text.trimLeft line = line)
    (tests : conditionWord? line = some .continuing) (notIf : opensIf line = false) :
    ∃ more, Text.lower line = .char 'e' :: .char 'l' :: more := by
  unfold opensIf at notIf
  unfold conditionWord? at tests
  rw [trimmed] at tests notIf
  simp only [notIf, Bool.false_eq_true, ↓reduceIte] at tests
  split at tests
  · rename_i either
    have keyword : ∃ rest, Text.afterKeyword? "else" line = some rest := by
      rcases either with joined | apart
      · have split : Text.afterKeyword? "elseif" line =
            (Text.afterKeyword? "else" line).bind (Text.afterKeyword? "if") :=
          afterKeyword?_append ("else" : Text) ("if" : Text) line
        cases found : Text.afterKeyword? "else" line with
        | some rest => exact ⟨rest, rfl⟩
        | none =>
            rw [split, found] at joined
            cases joined
      · cases found : Text.afterKeyword? "else" line with
        | some rest => exact ⟨rest, rfl⟩
        | none =>
            unfold afterElseBlankIf? at apart
            rw [found] at apart
            cases apart
    obtain ⟨rest, found⟩ := keyword
    exact lower_of_else found
  · cases tests

inductive Role where
  | test (word : ConditionWord)
  | otherwise
  | chainEnd
  | header
  | loopEnd
  /-- The line plays no part in blocks. -/
  | action
  deriving DecidableEq, Repr

/-- The role of a line. A lone `elseif` has none, and neither has a further condition without `else`. -/
def role? (line : Text) : Option Role :=
  let word := Text.lower line
  if word = "else" then some .otherwise
  else if isEndif line then some .chainEnd
  else if word = "elseif" ∨ word = "else if" then none
  else
    match conditionWord? line with
    | some .opening => some (.test .opening)
    | some .continuing => if opensIf line then none else some (.test .continuing)
    | none =>
      if isForeach line then some .header else if isEndfor line then some .loopEnd else some .action

def Role.count (role : Role) (count : BlockCount) : BlockCount :=
  match role with
  | .header => { count with loops := count.loops + 1 }
  | .loopEnd => { count with loops := count.loops - 1 }
  | .test .opening => { count with ifs := count.ifs + 1 }
  | .chainEnd => { count with ifs := count.ifs - 1 }
  | _ => count

/-- No word of a conditional chain makes up the line. -/
def IsChainFree (line : Text) : Prop :=
  Text.lower line ≠ "else" ∧ isEndif line = false ∧ ¬(Text.lower line = "elseif" ∨ Text.lower line = "else if")

def Role.Describes : Role → Text → Prop
  | .otherwise, line => Text.lower line = "else"
  | .chainEnd, line => Text.lower line ≠ "else" ∧ isEndif line
  | .test .opening, line => IsChainFree line ∧ conditionWord? line = some .opening
  | .test .continuing, line => IsChainFree line ∧ conditionWord? line = some .continuing ∧ opensIf line = false
  | .header, line => IsChainFree line ∧ conditionWord? line = none ∧ isForeach line
  | .loopEnd, line => IsChainFree line ∧ conditionWord? line = none ∧ isForeach line = false ∧ isEndfor line
  | .action, line =>
    IsChainFree line ∧ conditionWord? line = none ∧ isForeach line = false ∧ isEndfor line = false

theorem describes_of_role {role : Role} (known : role? line = some role) : role.Describes line := by
  unfold role? at known
  by_cases isElse : Text.lower line = "else"
  · rw [if_pos isElse] at known
    cases known
    exact isElse
  rw [if_neg isElse] at known
  by_cases ends : isEndif line
  · rw [if_pos ends] at known
    cases known
    exact ⟨isElse, ends⟩
  rw [if_neg ends] at known
  split at known
  · cases known
  rename_i notBare
  have free : IsChainFree line := ⟨isElse, by simpa using ends, notBare⟩
  split at known
  · rename_i tests
    cases known
    exact ⟨free, tests⟩
  · rename_i tests
    split at known
    · cases known
    · rename_i notIf
      cases known
      exact ⟨free, tests, by simpa using notIf⟩
  · rename_i tests
    split at known
    · rename_i opens
      cases known
      exact ⟨free, tests, opens⟩
    rename_i notForeach
    split at known
    · rename_i ends
      cases known
      exact ⟨free, tests, by simpa using notForeach, ends⟩
    · rename_i notEndfor
      cases known
      exact ⟨free, tests, by simpa using notForeach, by simpa using notEndfor⟩

theorem opensIf_of_none (tests : conditionWord? line = none) : opensIf line = false := by
  cases opens : opensIf line with
  | false => rfl
  | true =>
      unfold opensIf at opens
      simp only [conditionWord?, opens, ↓reduceIte] at tests
      cases tests

theorem opensIf_of_opening (tests : conditionWord? line = some .opening) : opensIf line := by
  unfold conditionWord? at tests
  unfold opensIf
  cases opens : (Text.afterKeyword? "if" (Text.trimLeft line)).any opensParen with
  | true => rfl
  | false =>
      simp only [opens, Bool.false_eq_true, ↓reduceIte] at tests
      split at tests <;> cases tests

theorem not_isForeach_of_leads {letter : CodePoint} (trimmed : Text.trimLeft line = line)
    (starts : leads letter line) (other : letter ≠ 'f') : isForeach line = false := by
  cases opens : isForeach line with
  | false => rfl
  | true => exact absurd (leads_unique starts (leads_of_isForeach trimmed opens)) other

theorem not_opensIf_of_leads {letter : CodePoint} (trimmed : Text.trimLeft line = line)
    (starts : leads letter line) (other : letter ≠ 'i') (plain : letter.toNat < 128) :
    opensIf line = false := by
  cases opens : opensIf line with
  | false => rfl
  | true => exact absurd starts (leads_of_opensIf trimmed opens other plain)

theorem not_isEndfor_of_isEndif (ends : isEndif line) : isEndfor line = false := by
  cases other : isEndfor line with
  | false => rfl
  | true =>
      simp only [isEndif, isEndfor, isWordLine, Bool.or_eq_true, decide_eq_true_eq] at ends other
      rcases ends with same | starts <;> rcases other with same' | starts'
      · rw [same] at same'
        revert same'
        decide
      · rw [same] at starts'
        revert starts'
        decide
      · rw [same'] at starts
        revert starts
        decide
      · obtain ⟨rest, whole⟩ := List.isPrefixOf_iff_prefix.mp starts
        obtain ⟨rest', whole'⟩ := List.isPrefixOf_iff_prefix.mp starts'
        rw [← whole] at whole'
        simp at whole'

theorem isEndfor_of_role {role : Role} (trimmed : Text.trimLeft line = line) (known : role? line = some role)
    (notEnd : role ≠ .loopEnd) : isEndfor line = false := by
  have described := describes_of_role known
  have byLead (starts : ¬leads 'e' line) : isEndfor line = false := by
    cases ends : isEndfor line with
    | false => rfl
    | true => exact absurd (leads_of_isWordLine rfl ends) starts
  match role, described with
  | .otherwise, isElse =>
      have spelled : Text.lower line = ("else" : Text) := isElse
      simp only [isEndfor, isWordLine, spelled]
      decide
  | .chainEnd, ⟨_, ends⟩ => exact not_isEndfor_of_isEndif ends
  | .test .opening, ⟨_, tests⟩ =>
      exact byLead (leads_of_opensIf trimmed (opensIf_of_opening tests) (by decide) (by decide))
  | .test .continuing, ⟨_, tests, notIf⟩ =>
      obtain ⟨more, spelled⟩ := lower_of_continuing trimmed tests notIf
      simp [isEndfor, isWordLine, spelled, Text.startsWith, List.isPrefixOf]
  | .header, ⟨_, _, opens⟩ =>
      refine byLead fun starts => ?_
      exact absurd (leads_unique starts (leads_of_isForeach trimmed opens)) (by decide)
  | .loopEnd, _ => exact absurd rfl notEnd
  | .action, ⟨_, _, _, notEndfor⟩ => exact notEndfor

theorem pass_of_role {role : Role} (trimmed : Text.trimLeft line = line) (known : role? line = some role)
    (notEnd : role ≠ .loopEnd) (count : BlockCount) : count.pass line = role.count count := by
  unfold BlockCount.pass
  match role, describes_of_role known with
  | .otherwise, isElse =>
      have starts : leads 'e' line := by
        unfold leads
        rw [show Text.lower line = ("else" : Text) from isElse]
        rfl
      have notEndif : isEndif line = false := by
        simp only [isEndif, isWordLine, show Text.lower line = ("else" : Text) from isElse]
        decide
      simp only [not_isForeach_of_leads trimmed starts (by decide),
        not_opensIf_of_leads trimmed starts (by decide) (by decide), notEndif, Bool.false_eq_true, ↓reduceIte,
        Role.count]
  | .chainEnd, ⟨_, ends⟩ =>
      have starts : leads 'e' line := leads_of_isWordLine rfl ends
      simp only [not_isForeach_of_leads trimmed starts (by decide),
        not_opensIf_of_leads trimmed starts (by decide) (by decide), ends, Bool.false_eq_true, ↓reduceIte,
        Role.count]
  | .test .opening, ⟨_, tests⟩ =>
      have opens := opensIf_of_opening tests
      have notForeach : isForeach line = false := by
        cases loops : isForeach line with
        | false => rfl
        | true =>
            exact absurd (leads_of_isForeach trimmed loops)
              (leads_of_opensIf trimmed opens (by decide) (by decide))
      simp only [notForeach, opens, Bool.false_eq_true, ↓reduceIte, Role.count]
  | .test .continuing, ⟨⟨_, notEndif, _⟩, tests, notIf⟩ =>
      obtain ⟨more, spelled⟩ := lower_of_continuing trimmed tests notIf
      have starts : leads 'e' line := by simp [leads, spelled]
      simp only [not_isForeach_of_leads trimmed starts (by decide), notIf, notEndif, Bool.false_eq_true,
        ↓reduceIte, Role.count]
  | .header, ⟨_, _, opens⟩ => simp only [opens, ↓reduceIte, Role.count]
  | .loopEnd, _ => exact absurd rfl notEnd
  | .action, ⟨⟨_, notEndif, _⟩, tests, notForeach, _⟩ =>
      simp only [notForeach, opensIf_of_none tests, notEndif, Bool.false_eq_true, ↓reduceIte, Role.count]

theorem track_of_role {role : Role} (trimmed : Text.trimLeft line = line) (known : role? line = some role)
    (notEnd : role ≠ .loopEnd) (count : BlockCount) : count.track line = (role.count count, .ok false) := by
  unfold BlockCount.track
  rw [isEndfor_of_role trimmed known notEnd, pass_of_role trimmed known notEnd]
  rfl

theorem track_inner_loopEnd (known : role? line = some .loopEnd) {count : BlockCount} (inner : count.loops ≠ 1) :
    count.track line = (Role.loopEnd.count count, .ok false) := by
  obtain ⟨⟨_, notEndif, _⟩, tests, notForeach, ends⟩ := describes_of_role known
  have open' : ¬count.loops - 1 = 0 := by omega
  simp only [BlockCount.track, ends, ↓reduceIte, open', BlockCount.pass, notForeach, opensIf_of_none tests,
    notEndif, Bool.false_eq_true, Role.count]

theorem track_loopEnd (known : role? line = some .loopEnd) :
    BlockCount.track ⟨1, 0⟩ line = (⟨0, 0⟩, .ok true) := by
  obtain ⟨_, _, _, ends⟩ := describes_of_role known
  simp [BlockCount.track, ends]

def Role.isOutside : Role → Bool
  | .header | .loopEnd | .action => true
  | _ => false

theorem judge_outside {role : Role} {leaving : Bool} {conditions : List Branch} (known : role? line = some role)
    (outside : role.isOutside) :
    judge leaving conditions line =
      if conditions.head?.any Branch.isSkipping then .consumed conditions else .runs := by
  have facts : IsChainFree line ∧ conditionWord? line = none := by
    match role, describes_of_role known with
    | .header, ⟨free, tests, _⟩ => exact ⟨free, tests⟩
    | .loopEnd, ⟨free, tests, _⟩ => exact ⟨free, tests⟩
    | .action, ⟨free, tests, _⟩ => exact ⟨free, tests⟩
  obtain ⟨⟨notElse, notEndif, notBare⟩, tests⟩ := facts
  unfold judge
  simp only [notElse, notEndif, notBare, tests, ↓reduceIte, Bool.false_eq_true]

theorem tests_of_role {word : ConditionWord} (known : role? line = some (.test word)) :
    IsChainFree line ∧ conditionWord? line = some word := by
  have described := describes_of_role known
  cases word with
  | opening => exact described
  | continuing => exact ⟨described.1, described.2.1⟩

theorem judge_of_test {leaving : Bool} {conditions : List Branch} {word : ConditionWord} {text : Text}
    (known : role? line = some (.test word)) (condition : conditionText word line = .ok text) :
    judge leaving conditions line = testLine leaving conditions word text := by
  obtain ⟨⟨notElse, notEndif, notBare⟩, tests⟩ := tests_of_role known
  unfold judge
  simp only [notElse, notEndif, notBare, tests, condition, ↓reduceIte, Bool.false_eq_true]

theorem judge_of_otherwise {leaving : Bool} {conditions : List Branch} (known : role? line = some .otherwise) :
    judge leaving conditions line =
      if conditions.head?.any Branch.isPending then .consumed (replaceTop .elseTrue conditions)
      else if conditions.head?.any Branch.isTaken then .consumed (replaceTop .skip conditions)
      else if conditions.head? = some .skip then .consumed conditions
      else .failed .unexpectedElse := by
  have isElse : Text.lower line = ("else" : Text) := describes_of_role known
  unfold judge
  simp only [isElse, ↓reduceIte]

theorem judge_of_chainEnd {leaving : Bool} {branch : Branch} {conditions : List Branch}
    (known : role? line = some .chainEnd) :
    judge leaving (branch :: conditions) line = .consumed conditions := by
  obtain ⟨notElse, ends⟩ := describes_of_role known
  unfold judge
  simp only [notElse, ends, ↓reduceIte, reduceCtorEq, List.drop_succ_cons, List.drop_zero]

end Flow

end CommandScript
