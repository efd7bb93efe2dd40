import CommandScript.Command.Basic
import CommandScript.Proofs.Aliases.Keywords
import CommandScript.Proofs.Confinement.Evaluation
import CommandScript.Proofs.Dispatch.Segments
import CommandScript.Proofs.Passes.References
import CommandScript.Proofs.Release.Programs
import CommandScript.Proofs.Unfolding

/-! Lines that are handed to the host. A line that is no statement of the language is its command word and the
segments of its arguments; the host is given the line in which just the words that have values are replaced, and the
whole line as it is if there are none. -/

namespace CommandScript

variable {σ : Type} {env : Env σ}

namespace Words

def Literal (word : Text) : Prop :=
  Text.lower word = "true" ∨ Text.lower word = "false" ∨ ∃ x, parseDouble word = .ok (some x)

/-- A word that is none of these, so its value is asked for. -/
structure Asked (word : Text) : Prop where
  noTruth : ¬(Text.lower word = "true" ∨ Text.lower word = "false")
  noNumber : parseDouble word = .ok none

/-- A word keeps its place: it stands for itself, a variable in it is undefined, or it is no expression. -/
inductive Kept (env : Env σ) (word : Text) (session : Session σ) : Session σ → Prop
  | literal : Literal word → Kept env word session session
  | unknown {error : ScriptError} {middle : Session σ} :
      Asked word → Expr.valueOf env word session = .error (.error error) middle →
        (error.kind = .variableNotFound ∨ error.isMalformed = true) → Kept env word session middle

inductive Valued (env : Env σ) (word : Text) (session : Session σ) : Text → Session σ → Prop
  | value {value : Value} {shown : Text} {middle : Session σ} :
      Asked word → Expr.valueOf env word session = .ok value middle → value.render = .ok shown →
        Valued env word session shown middle

/-- The text that comes of the segments of a command's arguments, from left to right. -/
inductive Replaced (env : Env σ) : List Segment → Session σ → Text → Session σ → Prop
  | done (session : Session σ) : Replaced env [] session [] session
  | other {segment : Segment} {rest : List Segment} {session after : Session σ} {text : Text} :
      segment.isWord = false → Replaced env rest session text after →
        Replaced env (segment :: rest) session (segment.text ++ text) after
  | kept {word : Text} {rest : List Segment} {session middle after : Session σ} {text : Text} :
      Kept env word session middle → Replaced env rest middle text after →
        Replaced env (.word word :: rest) session (word ++ text) after
  | valued {word shown : Text} {rest : List Segment} {session middle after : Session σ} {text : Text} :
      Valued env word session shown middle → Replaced env rest middle text after →
        Replaced env (.word word :: rest) session (shown ++ text) after

/-- None of the words of a command's arguments has a value. -/
inductive Valueless (env : Env σ) : List Segment → Session σ → Session σ → Prop
  | done (session : Session σ) : Valueless env [] session session
  | other {segment : Segment} {rest : List Segment} {session after : Session σ} :
      segment.isWord = false → Valueless env rest session after → Valueless env (segment :: rest) session after
  | kept {word : Text} {rest : List Segment} {session middle after : Session σ} :
      Kept env word session middle → Valueless env rest middle after → Valueless env (.word word :: rest) session after

theorem Valueless.replaced {segments : List Segment} {session after : Session σ}
    (none : Valueless env segments session after) :
    Replaced env segments session (segments.flatMap Segment.text) after := by
  induction none with
  | done session => exact .done session
  | other segment _ ih => exact .other segment ih
  | kept word _ ih => exact .kept word ih

def askedWord (env : Env σ) (word : Text) : Run σ Text :=
  Run.onError (do Run.ofFault (← Expr.valueOf env word).render) fun error =>
    if error.kind = .variableNotFound ∨ error.isMalformed then return word else throw (.error error)

theorem argumentWord_asked {word : Text} (asked : Asked word) (session : Session σ) :
    argumentWord env word session = askedWord env word session := by
  simp only [argumentWord, if_neg asked.noTruth, asked.noNumber]
  rfl

theorem argumentWord_literal {word : Text} (literal : Literal word) (session : Session σ) :
    argumentWord env word session = .ok word session := by
  by_cases truth : Text.lower word = "true" ∨ Text.lower word = "false"
  · simp only [argumentWord, if_pos truth]
    rfl
  · obtain ⟨x, number⟩ := (or_assoc.mpr literal).resolve_left truth
    simp only [argumentWord, if_neg truth, number]
    rfl

theorem askedWord_eq {word : Text} (session : Session σ) :
    askedWord env word session =
      match Expr.valueOf env word session with
      | .ok value middle =>
        match value.render with
        | .ok shown => .ok shown middle
        | .error fault => .error (.fault fault) middle
      | .error (.error error) middle =>
        if error.kind = .variableNotFound ∨ error.isMalformed then .ok word middle else .error (.error error) middle
      | .error exit middle => .error exit middle := by
  simp only [askedWord, Run.onError, Run.attempt, bind, EStateM.bind]
  cases Expr.valueOf env word session with
  | ok value middle =>
      dsimp only
      cases value.render <;> rfl
  | error exit middle =>
      cases exit with
      | error error =>
        dsimp only
        split <;> rfl
      | _ => rfl

theorem argumentWord_kept {word : Text} {session middle : Session σ} (kept : Kept env word session middle) :
    argumentWord env word session = .ok word middle := by
  cases kept with
  | literal literal => exact argumentWord_literal literal session
  | unknown asked failed mild =>
      rw [argumentWord_asked asked, askedWord_eq, failed]
      exact if_pos mild

theorem argumentWord_valued {word shown : Text} {session middle : Session σ}
    (valued : Valued env word session shown middle) :
    argumentWord env word session = .ok shown middle := by
  obtain ⟨asked, evaluated, rendered⟩ := valued
  simp only [argumentWord_asked asked, askedWord_eq, evaluated, rendered]

theorem argumentWord_ok {word shown : Text} {session middle : Session σ}
    (replaced : argumentWord env word session = .ok shown middle) :
    shown = word ∧ Kept env word session middle ∨ Valued env word session shown middle := by
  by_cases truth : Text.lower word = "true" ∨ Text.lower word = "false"
  · have literal : Literal word := or_assoc.mp (.inl truth)
    rw [argumentWord_literal literal] at replaced
    cases replaced
    exact .inl ⟨rfl, .literal literal⟩
  cases number : parseDouble word with
  | error fault =>
      simp only [argumentWord, if_neg truth, number] at replaced
      cases replaced
  | ok found =>
      cases found with
      | some x =>
          have literal : Literal word := .inr (.inr ⟨x, number⟩)
          rw [argumentWord_literal literal] at replaced
          cases replaced
          exact .inl ⟨rfl, .literal literal⟩
      | none =>
          have asked : Asked word := ⟨truth, number⟩
          rw [argumentWord_asked asked, askedWord_eq] at replaced
          cases evaluated : Expr.valueOf env word session with
          | ok value after =>
              cases rendered : value.render with
              | ok text =>
                  simp only [evaluated, rendered] at replaced
                  cases replaced
                  exact .inr ⟨asked, evaluated, rendered⟩
              | error fault =>
                  simp only [evaluated, rendered] at replaced
                  cases replaced
          | error exit after =>
              rw [evaluated] at replaced
              cases exit with
              | error error =>
                  dsimp only at replaced
                  split at replaced
                  · rename_i mild
                    cases replaced
                    exact .inl ⟨rfl, .unknown asked evaluated mild⟩
                  · cases replaced
              | _ => cases replaced

theorem texts_iff {segments : List Segment} {session after : Session σ} {text : Text} :
    Piece.texts (argumentWord env) (segments.map Segment.piece) session = .ok text after ↔
      Replaced env segments session text after := by
  constructor
  · intro ran
    induction segments generalizing session text with
    | nil =>
        cases ran
        exact .done _
    | cons segment rest ih =>
        cases segment with
        | word word =>
            obtain ⟨shown, middle, replaced, ran⟩ := Run.bind_ended ran
            obtain ⟨more, last, others, same⟩ := Run.bind_ended ran
            cases same
            rcases argumentWord_ok replaced with ⟨rfl, kept⟩ | valued
            · exact .kept kept (ih others)
            · exact .valued valued (ih others)
        | _ =>
            obtain ⟨more, last, others, same⟩ := Run.bind_ended ran
            cases same
            exact .other rfl (ih others)
  · intro replaced
    have step {word shown : Text} {rest : List Piece} {session middle after : Session σ} {text : Text}
        (first : argumentWord env word session = .ok shown middle)
        (others : Piece.texts (argumentWord env) rest middle = .ok text after) :
        Piece.texts (argumentWord env) (.word word :: rest) session = .ok (shown ++ text) after := by
      simp only [Piece.texts, bind, EStateM.bind, first, others]
      rfl
    induction replaced with
    | done session => rfl
    | @other segment rest session after text plain _ ih =>
        have first : segment.piece = .verbatim segment.text := by
          cases segment with
          | word word => cases plain
          | _ => rfl
        simp only [List.map_cons, first, Piece.texts, bind, EStateM.bind, ih]
        rfl
    | kept kept _ ih => exact step (argumentWord_kept kept) ih
    | valued valued _ ih => exact step (argumentWord_valued valued) ih

end Words

namespace AliasTable

variable {tables : List AliasTable}

theorem substitute_word_front {word : Text} (pairs : List (CodePoint × CodePoint)) :
    ∃ more rest, substitute tables word pairs = replacement tables (word ++ more) ++ rest := by
  induction pairs generalizing word with
  | nil => exact ⟨[], [], by simp [substitute]⟩
  | cons pair pairs ih =>
      obtain ⟨c, masked⟩ := pair
      rw [substitute]
      split
      · exact ⟨[], c :: substitute tables [] pairs, by rw [List.append_nil]⟩
      · obtain ⟨more, rest, same⟩ := @ih (word ++ [masked])
        exact ⟨masked :: more, rest, by rw [same, List.append_assoc, List.singleton_append]⟩

theorem replacement_visible
    (checked : ∀ table ∈ tables, ∀ entry ∈ table, ∃ text, (Alias.parse text).map (·.value) = .ok entry.value)
    {c : CodePoint} {more : Text} (visible : Text.isBlank c = false) :
    ∃ d rest, replacement tables (c :: more) = d :: rest ∧ Text.isBlank d = false := by
  rw [replacement, if_neg (by simp)]
  cases found : tables.findSome? (find? · (c :: more)) with
  | none => exact ⟨c, more, rfl, visible⟩
  | some entry =>
      obtain ⟨table, inside, first⟩ := List.exists_of_findSome?_eq_some found
      obtain ⟨text, parsed⟩ := checked table inside entry (List.mem_of_find?_eq_some first)
      cases accepted : Alias.parse text with
      | error cause =>
          rw [accepted] at parsed
          cases parsed
      | ok other =>
          rw [accepted] at parsed
          obtain same : other.value = entry.value := Except.ok.inj parsed
          obtain ⟨filled, dotted⟩ := parse_dotted accepted
          rw [same] at filled dotted
          obtain ⟨d, rest, shape⟩ := List.exists_cons_of_ne_nil filled
          exact ⟨d, rest, by rw [Option.map_some, Option.getD_some, shape],
            (Text.dotted_neutral (dotted d (by simp [shape]))).1⟩

theorem apply_visible {line : Text}
    (checked : ∀ table ∈ tables, ∀ entry ∈ table, ∃ text, (Alias.parse text).map (·.value) = .ok entry.value)
    (visible : ∀ c ∈ line.head?, Text.isBlank c = false) : ∀ c ∈ (apply tables line).head?, Text.isBlank c = false := by
  have among : ∀ table ∈ tables.filter (· ≠ []), table ∈ tables := fun table member => (List.mem_filter.mp member).1
  rw [apply]
  split
  · exact visible
  · cases line with
    | nil => simp [substitute, replacement]
    | cons c rest =>
        have quotes := blankQuotes_blanked (Span.scan (c :: rest))
        have masks := mask_blanked (c :: rest)
        rw [Span.flatten_scan] at quotes
        obtain ⟨shown, _, quote, -, same⟩ := List.forall₂_cons_left_iff.mp quotes
        rw [same] at masks
        obtain ⟨masked, more, mark, -, whole⟩ := List.forall₂_cons_left_iff.mp masks
        rw [whole, List.zip_cons_cons, substitute]
        split
        · rw [replacement_nil, List.nil_append]
          exact visible
        · rename_i inWord
          have other : masked ≠ ' ' := fun blank => inWord (blank ▸ by decide)
          obtain rfl : masked = shown := mark.resolve_right other
          obtain rfl : masked = c := quote.resolve_right other
          obtain ⟨after, tail, front⟩ := @substitute_word_front (tables.filter (· ≠ [])) [masked] (rest.zip more)
          obtain ⟨d, word, replaced, shows⟩ := @replacement_visible (tables.filter (· ≠ []))
            (fun table member => checked table (among table member)) masked after (visible masked rfl)
          rw [List.nil_append, front, List.singleton_append, replaced]
          rintro _ ⟨⟩
          exact shows

theorem apply_trimmed {tables : List AliasTable}
    (checked : ∀ table ∈ tables, ∀ entry ∈ table, ∃ text, (Alias.parse text).map (·.value) = .ok entry.value)
    (text : Text) :
    ∀ c ∈ (apply tables (Text.trim text)).head?, Text.isBlank c = false := by
  refine apply_visible checked fun c first => ?_
  have front : Text.trim text <+: Text.trimLeft text := by
    rw [← List.reverse_suffix, Text.trim, Text.trimRight, List.reverse_reverse]
    exact List.dropWhile_suffix _
  have starts := List.head?_dropWhile_not Text.isBlank text
  obtain ⟨rest, same⟩ := List.head?_eq_some_iff.mp first
  obtain ⟨more, whole⟩ := front
  rw [same, List.cons_append] at whole
  rw [show text.dropWhile Text.isBlank = c :: (rest ++ more) from whole.symm] at starts
  simpa using starts

end AliasTable

namespace Command

/-- A line is a command word and what follows it: white space or an equals sign, and more, or nothing. -/
structure Splits (line command rest : Text) : Prop where
  whole : line = command ++ rest
  filled : command ≠ []
  named : ∀ c ∈ command, Text.isDottedNameChar c = true
  ends : ∀ c ∈ rest.head?, Text.isBlank c = true ∨ c = '='

def deliver (env : Env σ) (command rest text : Text) : Run σ Unit := do
  let result ← Run.askOr (fun message => .command (.dispatchFailed command message))
    (env.services.dispatch text)
  match result with
  | .refused message =>
    fail (.dispatchRefused command (Text.orElse message ("command argument error: " ++ text)))
  | .notFound =>
    if (Text.trimLeft rest).head? = some (.char '=') then fail (.unknownVariable command)
    else fail (.unknownCommand command)
  | .parsed output => if !output.isEmpty then Run.writeLine output

theorem Splits.command_eq {line command rest : Text} (splits : Splits line command rest) :
    (Text.firstWord line).takeWhile (· ≠ .char '=') = command := by
  obtain ⟨whole, filled, named, ends⟩ := splits
  have plain (c : CodePoint) (member : c ∈ command) : Text.isBlank c = false ∧ c ≠ '=' := by
    have neutral := Text.dotted_neutral (named c member)
    refine ⟨neutral.1, ?_⟩
    rintro rfl
    exact absurd neutral.2.1 (by decide)
  have start : Text.trimLeft (command ++ rest) = command ++ rest := by
    obtain ⟨c, more, rfl⟩ := List.exists_cons_of_ne_nil filled
    exact List.dropWhile_cons_of_neg (by simp [(plain c List.mem_cons_self).1])
  have stops : (rest.takeWhile (!Text.isBlank ·)).takeWhile (· ≠ .char '=') = [] := by
    cases rest with
    | nil => rfl
    | cons c more =>
        rcases ends c rfl with blank | rfl
        · rw [List.takeWhile_cons_of_neg (by simp [blank]), List.takeWhile_nil]
        · rw [List.takeWhile_cons_of_pos (by decide), List.takeWhile_cons_of_neg (by decide)]
  rw [Text.firstWord, whole, start,
    List.takeWhile_append_of_pos fun c member => by simp [(plain c member).1],
    List.takeWhile_append_of_pos fun c member => by simp [(plain c member).2], stops, List.append_nil]

theorem exists_splits {line : Text} (visible : ∀ c ∈ line.head?, Text.isBlank c = false)
    (filled : (Text.firstWord line).takeWhile (· ≠ .char '=') ≠ [])
    (named : ∀ c ∈ (Text.firstWord line).takeWhile (· ≠ .char '='), Text.isDottedNameChar c = true) :
    ∃ command rest, Splits line command rest := by
  have start : Text.trimLeft line = line := by
    cases line with
    | nil => rfl
    | cons c rest => exact List.dropWhile_cons_of_neg (by simp [visible c rfl])
  let inside : CodePoint → Bool := fun c => decide (c ≠ '=') && !Text.isBlank c
  have word : (Text.firstWord line).takeWhile (· ≠ .char '=') = line.takeWhile inside := by
    rw [Text.firstWord, start, List.takeWhile_takeWhile]
    simp [inside]
  rw [word] at filled named
  refine ⟨line.takeWhile inside, line.dropWhile inside, List.takeWhile_append_dropWhile.symm, filled, named,
    fun c first => ?_⟩
  have stops := List.head?_dropWhile_not inside line
  rw [Option.mem_def.mp first] at stops
  simp only [inside, Bool.and_eq_false_iff, decide_eq_false_iff_not, not_not, Bool.not_eq_false'] at stops
  exact stops.symm

/-- Of the statements that are left to the host, those that start with no command are refused as they are; the
others split. -/
theorem dispatch_refused_or_splits {tables : List AliasTable}
    (checked : ∀ table ∈ tables, ∀ entry ∈ table, ∃ text, (Alias.parse text).map (·.value) = .ok entry.value)
    (text : Text) :
    let line := AliasTable.apply tables (Text.trim text)
    (∃ command rest, Splits line command rest) ∨ ∀ (env : Env σ) (session : Session σ),
      dispatch env line session = .error (.error { cause := .malformed (.statement line) }) session := by
  intro line
  cases refused : ((Text.firstWord line).takeWhile (· ≠ .char '=')).isEmpty ||
      !((Text.firstWord line).takeWhile (· ≠ .char '=')).all Text.isDottedNameChar with
  | true =>
      refine .inr fun env session => ?_
      simp only [dispatch, refused, if_true]
      rfl
  | false =>
      simp only [Bool.or_eq_false_iff, Bool.not_eq_false', List.isEmpty_eq_false_iff, List.all_eq_true] at refused
      exact .inl (exists_splits (AliasTable.apply_trimmed checked text) refused.1 refused.2)

theorem dispatch_splits {line command rest : Text} (splits : Splits line command rest) :
    dispatch env line = (do deliver env command rest (command ++ (← Words.substitute env rest))) := by
  have rest_eq : line.drop command.length = rest := by rw [splits.whole, List.drop_left]
  have valid : (command.isEmpty || !command.all Text.isDottedNameChar) = false := by
    simp [splits.filled, List.all_eq_true.mpr splits.named]
  simp only [dispatch, splits.command_eq, rest_eq, valid]
  rfl

/-- What the host is given for a line. Of the segments of its arguments, which leave nothing out, just the words
that have values give way to them, from left to right; if that leaves with an exit, so does the line. A line
none of whose words has a value is given to the host as it is. -/
theorem dispatch_substitutes (env : Env σ) {line command rest : Text} (splits : Splits line command rest)
    (session : Session σ) :
    (∃ segments, Segmented rest segments) ∧ ∀ segments, Segmented rest segments →
      segments.flatMap Segment.text = rest ∧
      (∀ text after, Words.substitute env rest session = .ok text after ↔
        Words.Replaced env segments session text after) ∧
      (∀ text after, Words.Replaced env segments session text after →
        dispatch env line session = deliver env command rest (command ++ text) after) ∧
      (∀ exit after, Words.substitute env rest session = .error exit after →
        dispatch env line session = .error exit after) ∧
      ∀ after, Words.Valueless env segments session after →
        dispatch env line session = deliver env command rest line after := by
  refine ⟨exists_segmented rest, fun segments parts => ?_⟩
  have iff (text : Text) (after : Session σ) :
      Words.substitute env rest session = .ok text after ↔ Words.Replaced env segments session text after := by
    rw [Words.substitute, parts.ofArguments]
    exact Words.texts_iff
  have delivered (text : Text) (after : Session σ) (replaced : Words.Replaced env segments session text after) :
      dispatch env line session = deliver env command rest (command ++ text) after := by
    simp only [dispatch_splits splits, bind, EStateM.bind, (iff text after).mpr replaced]
  refine ⟨parts.text_eq, iff, delivered, fun exit after left => ?_, fun after none => ?_⟩
  · simp only [dispatch_splits splits, bind, EStateM.bind, left]
  · have same := delivered _ after none.replaced
    rwa [parts.text_eq, ← splits.whole] at same

/-- The value of `x` stands in for a word, not for a key or a quoted text. -/
theorem dispatch_substitutes_move :
    let env : Env (List Text) :=
      { services := { dispatchers := [fun line => do modify (line :: ·); return .parsed []] } }
    let session := (Session.start {} ([] : List Text)).put "x" "5"
    Splits "move x=x to x 'x'" "move" " x=x to x 'x'" ∧
      ((dispatch env "move x=x to x 'x'").leaves session).host = [("move x=5 to 5 'x'" : Text)] := by
  intro env session
  have splits : Splits "move x=x to x 'x'" "move" " x=x to x 'x'" :=
    ⟨by decide, by decide, List.all_eq_true.mp (by decide), by rintro _ ⟨⟩; decide⟩
  have ran : Words.substitute env " x=x to x 'x'" session = .ok " x=5 to 5 'x'" _ :=
    Run.answer?_eq_some (by decide +kernel)
  have quiet : ((Words.substitute env " x=x to x 'x'").leaves session).host = [] := by decide +kernel
  obtain ⟨⟨segments, parts⟩, substitution⟩ := dispatch_substitutes env splits session
  obtain ⟨-, replaced, delivered, -⟩ := substitution segments parts
  refine ⟨splits, ?_⟩
  rw [Run.leaves, delivered _ _ ((replaced _ _).mp ran)]
  show [("move x=5 to 5 'x'" : Text)] ++ ((Words.substitute env " x=x to x 'x'").leaves session).host = _
  rw [quiet, List.append_nil]

end Command

end CommandScript
