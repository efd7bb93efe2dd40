import CommandScript.Interpreter
import CommandScript.Proofs.Comments.Stripping

/-! Comments on a line that is run. The line is split into statements before comments are dropped, so a comment is read
for quotes and semicolons: a quote that it leaves open is an error, and what stands behind a semicolon is run. -/

namespace CommandScript

namespace Text

theorem prepend_prepend (piece other : Text) (found : List Text) :
    prepend piece (prepend other found) = prepend (piece ++ other) found := by
  cases found <;> simp [prepend]

theorem map_prepend_nil (spans : List Span) : (pieces spans).map (prepend []) = pieces spans := by
  have kept (piece : Text) (rest : List Span) :
      ((pieces rest).map (prepend piece)).map (prepend []) = (pieces rest).map (prepend piece) := by
    cases pieces rest with
    | error error => rfl
    | ok found => simp [Except.map, prepend_prepend]
  cases spans with
  | nil => rfl
  | cons span rest =>
      cases span with
      | unclosed quote body => rfl
      | quoted quote body => exact kept _ rest
      | plain c =>
          rw [pieces]
          split
          · cases pieces rest <;> rfl
          · exact kept [c] rest

/-- A piece put before other pieces leaves the last of them, or becomes a part of it. -/
theorem prepend_front (piece : Text) (front : List Text) (last : Text) :
    ∃ start final, (final = last ∨ final = piece ++ last) ∧
      ∀ found, prepend piece (front ++ prepend last found) = start ++ prepend final found := by
  cases front with
  | nil => exact ⟨[], piece ++ last, .inr rfl, fun found => prepend_prepend piece last found⟩
  | cons first more => exact ⟨(piece ++ first) :: more, last, .inl rfl, fun found => rfl⟩

/-- What follows a text with closed quotes is split by itself; its first piece belongs to the last one of the text,
whose quotes are closed, too. -/
theorem Closed.pieces_append {s : Text} (closed : Closed s) :
    ∃ front last, Closed last ∧
      ∀ behind, pieces (Span.scan s ++ behind) = (pieces behind).map fun found => front ++ prepend last found := by
  induction s using Span.scanWith.induct Quote.of? with
  | case1 =>
      refine ⟨[], [], Closed.nil, fun behind => ?_⟩
      rw [Span.scan, Span.scanWith]
      exact (map_prepend_nil behind).symm
  | case2 c s noQuote ih =>
      obtain ⟨front, last, closedLast, split⟩ := ih ((closed_plain noQuote).mp closed)
      by_cases ends : endsStatement c = true
      · refine ⟨[] :: front, last, closedLast, fun behind => ?_⟩
        rw [scan_plain noQuote, List.cons_append, pieces, split, if_pos ends]
        cases pieces behind <;> rfl
      · obtain ⟨start, final, grown, joined⟩ := prepend_front [c] front last
        refine ⟨start, final, ?_, fun behind => ?_⟩
        · rcases grown with rfl | rfl
          · exact closedLast
          · exact (closed_plain noQuote).mpr closedLast
        · rw [scan_plain noQuote, List.cons_append, pieces, split, if_neg ends]
          cases pieces behind with
          | error error => rfl
          | ok found => exact congrArg Except.ok (joined found)
  | case3 c s quote opens missing =>
      obtain rfl := Quote.of?_eq_some opens
      refine absurd ?_ (closed quote s)
      rw [scan_unclosed missing]
      exact List.mem_singleton.mpr rfl
  | case4 c s quote opens body after found ih =>
      obtain rfl := Quote.of?_eq_some opens
      obtain rfl := cut?_append found
      have clear := cut?_before found
      obtain ⟨front, last, closedLast, split⟩ := ih ((closed_quoted clear).mp closed)
      obtain ⟨start, final, grown, joined⟩ := prepend_front (Span.quoted quote body).text front last
      refine ⟨start, final, ?_, fun behind => ?_⟩
      · rcases grown with rfl | rfl
        · exact closedLast
        · simpa [Span.text] using (closed_quoted clear).mpr closedLast
      · rw [scan_closed clear, List.cons_append, pieces, split]
        cases pieces behind with
        | error error => rfl
        | ok found => exact congrArg Except.ok (joined found)

def endsPiece : Span → Bool
  | .plain c => endsStatement c
  | _ => false

def Undivided (s : Text) : Prop := ∀ span ∈ Span.scan s, endsPiece span = false

instance (s : Text) : Decidable (Undivided s) := List.decidableBAll _ _

theorem pieces_whole {spans : List Span} (closed : ∀ span ∈ spans, isUnclosed span = false)
    (whole : ∀ span ∈ spans, endsPiece span = false) : pieces spans = .ok [Span.flatten spans] := by
  induction spans with
  | nil => rfl
  | cons span rest ih =>
      obtain ⟨closedSpan, closedRest⟩ := List.forall_mem_cons.mp closed
      obtain ⟨goesOn, later⟩ := List.forall_mem_cons.mp whole
      have split := ih closedRest later
      cases span with
      | plain c => simp [pieces, split, show endsStatement c = false from goesOn, Except.map, prepend,
          Span.flatten, Span.text]
      | quoted quote body => simp [pieces, split, Except.map, prepend, Span.flatten]
      | unclosed quote body => cases closedSpan

def behindComment (comment : Text) : Except Malformed (List Text) :=
  (pieces (Span.scan comment)).map fun found => (found.tail.map trim).filter (· ≠ [])

theorem trim_stripComment_trim {s : Text} (closed : Closed s) (note : Text) :
    trim (stripComment (trim (s ++ .char '#' :: note))) = trim (stripComment (trim s)) := by
  obtain ⟨gap, whole, blank⟩ := trimRight_gap (trimLeft s)
  rw [trim_around (by decide), closed.trimLeft.stripComment, whole]
  exact trim_stripComment_append blank _

end Text

namespace Interpreter

variable {σ : Type} {env : Env σ} {exec : Text → Run σ Unit}

theorem statement_congr {text other : Text}
    (same : Text.trim (Text.stripComment text) = Text.trim (Text.stripComment other)) :
    statement env exec text = statement env exec other := by
  unfold statement
  rw [same]

theorem statement_nil : statement env exec [] = pure () := by
  have nothing : Text.trim (Text.stripComment []) = [] := by
    simp [Text.stripComment, Span.scan, Span.scanWith, Text.beforeComment, Text.trim, Text.trimLeft, Text.trimRight]
  unfold statement
  rw [nothing]
  rfl

theorem statements_filter (texts : List Text) :
    statements env exec (texts.filter (· ≠ [])) = statements env exec texts := by
  unfold statements
  induction texts with
  | nil => rfl
  | cons text rest ih =>
      by_cases blank : text = []
      · subst blank
        simpa [statement_nil] using ih
      · simpa [blank] using bind_congr fun _ => ih

theorem statements_append (texts more : List Text) :
    statements env exec (texts ++ more) = (do statements env exec texts; statements env exec more) := by
  simp [statements]

/-- What a line does that ends in a comment: the comment is split as if it were code, then the line is run up to its
number sign, and then the statements that the comment has behind its first semicolon. -/
theorem execLine_commented {code : Text} (closed : code.Closed) (depth : Nat) (comment : Text) :
    execLine env (depth + 1) (code ++ .char '#' :: comment) = (do
      let behind ← Run.ofMalformed (Text.behindComment comment)
      execLine env (depth + 1) code
      statements env (execLine env depth) behind) := by
  obtain ⟨front, last, closedLast, split⟩ := closed.pieces_append
  have alone : Text.splitStatements code = .ok ((front ++ [last]).map Text.trim |>.filter (· ≠ [])) := by
    have whole := split []
    rw [List.append_nil] at whole
    rw [Text.splitStatements, whole]
    simp [Text.pieces, Except.map, Text.prepend]
  have marked : Span.scan (code ++ .char '#' :: comment) = Span.scan code ++ .plain '#' :: Span.scan comment := by
    rw [closed.scan_append, Text.scan_plain (by decide)]
  rw [execLine, execLine, Text.splitStatements, marked, split, Text.pieces, alone, Text.behindComment]
  cases Text.pieces (Span.scan comment) with
  | error error => rfl
  | ok found =>
      let exec := execLine env depth
      obtain ⟨first, joined⟩ : ∃ first, Text.prepend [.char '#'] found = (.char '#' :: first) :: found.tail := by
        cases found with
        | nil => exact ⟨[], rfl⟩
        | cons first more => exact ⟨first, rfl⟩
      have cut : statement env exec (Text.trim (last ++ .char '#' :: first)) = statement env exec (Text.trim last) :=
        statement_congr (Text.trim_stripComment_trim closedLast first)
      have line : front ++ Text.prepend last (Text.prepend [.char '#'] found) =
          front ++ [last ++ .char '#' :: first] ++ found.tail := by
        rw [joined]
        simp [Text.prepend]
      change statements env exec
        (((front ++ Text.prepend last (Text.prepend [.char '#'] found)).map Text.trim).filter (· ≠ [])) =
        (do
          statements env exec (((front ++ [last]).map Text.trim).filter (· ≠ []))
          statements env exec ((found.tail.map Text.trim).filter (· ≠ [])))
      rw [line, statements_filter, statements_filter, statements_filter, List.map_append, statements_append]
      simp only [statements, List.map_append, List.map_cons, List.map_nil, List.forM_eq_forM, List.forM_append,
        List.forM_cons, List.forM_nil, cut]

/-- A comment has no effect on a line that is run, if it has no semicolon outside quotes and leaves no quote open. In
general what stands behind a semicolon is run after the line, and nothing is run if a quote is left open. -/
theorem execLine_comment {code : Text} (closed : code.Closed) (env : Env σ) (depth : Nat) (comment : Text) :
    (comment.Closed → comment.Undivided →
      execLine env depth (code ++ .char '#' :: comment) = execLine env depth code) ∧
    execLine env (depth + 1) (code ++ .char '#' :: comment) = (do
      let behind ← Run.ofMalformed (Text.behindComment comment)
      execLine env (depth + 1) code
      statements env (execLine env depth) behind) := by
  refine ⟨fun closedComment undivided => ?_, execLine_commented closed depth comment⟩
  cases depth with
  | zero => rfl
  | succ depth =>
      have split := Text.pieces_whole (Text.closed_iff.mp closedComment) undivided
      have nothing : Text.behindComment comment = .ok [] := by
        rw [Text.behindComment, split]
        rfl
      rw [execLine_commented closed, nothing]
      exact bind_pure (execLine env (depth + 1) code)

/-- Semicolons in the quotes of the line and of its comment, and a number sign in quotes. -/
theorem quotedComment_silent :
    execLine ({} : Env Unit) 5 "print 'a # b; c'; x = 1 # \"x; y\" is \x7b;\x7d" =
        execLine {} 5 "print 'a # b; c'; x = 1 " ∧
      execLine ({} : Env Unit) 5 "x = 1 # set; y = 2" = (do
        let behind ← Run.ofMalformed (Text.behindComment " set; y = 2")
        execLine {} 5 "x = 1 "
        statements {} (execLine {} 4) behind) :=
  ⟨(@execLine_comment Unit "print 'a # b; c'; x = 1 " (by decide +kernel) {} 5 " \"x; y\" is \x7b;\x7d").1
      (by decide +kernel) (by decide +kernel),
    (@execLine_comment Unit "x = 1 " (Text.Unquoted.closed (by decide)) {} 4 " set; y = 2").2⟩

end Interpreter

end CommandScript
