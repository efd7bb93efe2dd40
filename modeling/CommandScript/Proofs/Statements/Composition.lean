import CommandScript.Proofs.Comments.Running
import CommandScript.Proofs.Structured.Passing

/-! Statements of a line that is put together. Behind a semicolon or a newline outside quotes splitting starts
anew, and a statement that has been cut off is not split any further: white space is never taken from a quoted
span. -/

namespace CommandScript.Text

theorem undivided_plain {c : CodePoint} (noQuote : Quote.of? c = none) {rest : Text} :
    Undivided (c :: rest) ↔ endsStatement c = false ∧ Undivided rest := by
  rw [Undivided, scan_plain noQuote, List.forall_mem_cons]
  rfl

theorem undivided_quoted {quote : Quote} {body : Text} (clear : ∀ c ∈ body, c ≠ quote.closing) {rest : Text} :
    Undivided (quote.opening :: (body ++ quote.closing :: rest)) ↔ Undivided rest := by
  rw [Undivided, scan_closed clear, List.forall_mem_cons]
  exact and_iff_right rfl

/-- A text that is split into itself: its quotes are closed, and no statement ends outside them. -/
structure Whole (s : Text) : Prop where
  closed : Closed s
  undivided : Undivided s

namespace Whole

theorem nil : Whole [] where
  closed := .nil
  undivided := by simp [Undivided, Span.scan, Span.scanWith]

theorem cons {c : CodePoint} {s : Text} (noQuote : Quote.of? c = none) (goesOn : endsStatement c = false)
    (whole : Whole s) :
    Whole (c :: s) where
  closed := (closed_plain noQuote).mpr whole.closed
  undivided := (undivided_plain noQuote).mpr ⟨goesOn, whole.undivided⟩

theorem span {quote : Quote} {body : Text} (clear : ∀ c ∈ body, c ≠ quote.closing) {s : Text} (whole : Whole s) :
    Whole ((Span.quoted quote body).text ++ s) := by
  have shape : (Span.quoted quote body).text ++ s = quote.opening :: (body ++ quote.closing :: s) := by
    simp [Span.text]
  rw [shape]
  constructor
  · exact (closed_quoted clear).mpr whole.closed
  · exact (undivided_quoted clear).mpr whole.undivided

theorem pieces {s : Text} (whole : Whole s) : pieces (Span.scan s) = .ok [s] := by
  have split := pieces_whole (closed_iff.mp whole.closed) whole.undivided
  rwa [Span.flatten_scan] at split

theorem trimLeft {s : Text} (whole : Whole s) : Whole (trimLeft s) := by
  induction s with
  | nil => exact whole
  | cons c rest ih =>
      by_cases white : isBlank c = true
      · have noQuote := Lexeme.blank_unquoted white
        rw [Text.trimLeft, List.dropWhile_cons_of_pos white]
        apply ih
        constructor
        · exact (closed_plain noQuote).mp whole.closed
        · exact ((undivided_plain noQuote).mp whole.undivided).2
      · rw [Text.trimLeft, List.dropWhile_cons_of_neg white]
        exact whole

end Whole

theorem Closed.of_append_blank {s gap : Text} (blank : ∀ c ∈ gap, isBlank c = true) (closed : Closed (s ++ gap)) :
    Closed s := by
  induction s using Span.scanWith.induct Quote.of? with
  | case1 => exact Closed.nil
  | case2 c s noQuote ih => exact (closed_plain noQuote).mpr (ih ((closed_plain noQuote).mp closed))
  | case3 c s quote opens missing =>
      obtain rfl := Quote.of?_eq_some opens
      have unclosed := scan_unclosed (cut?_append_blank blank quote missing)
      refine absurd ?_ (closed quote (s ++ gap))
      rw [List.cons_append, unclosed]
      exact List.mem_singleton.mpr rfl
  | case4 c s quote opens body after found ih =>
      obtain rfl := Quote.of?_eq_some opens
      obtain rfl := cut?_append found
      have clear := cut?_before found
      rw [List.cons_append, List.append_assoc, List.cons_append] at closed
      exact (closed_quoted clear).mpr (ih ((closed_quoted clear).mp closed))

theorem Whole.trim {s : Text} (whole : Whole s) : Whole (trim s) := by
  obtain ⟨gap, shape, blank⟩ := trimRight_gap (Text.trimLeft s)
  have left := whole.trimLeft
  rw [shape] at left
  have closed := left.closed.of_append_blank blank
  refine ⟨closed, fun span member => left.undivided span ?_⟩
  rw [closed.scan_append]
  exact List.mem_append_left _ member

theorem prepend_members {piece : Text} {found : List Text} {p : Text → Prop} (joined : ∀ s, p s → p (piece ++ s))
    (alone : p piece) (all : ∀ s ∈ found, p s) : ∀ s ∈ prepend piece found, p s := by
  cases found with
  | nil =>
      intro s member
      rw [List.mem_singleton.mp member]
      exact alone
  | cons first more =>
      obtain ⟨head, tail⟩ := List.forall_mem_cons.mp all
      exact List.forall_mem_cons.mpr ⟨joined first head, tail⟩

theorem pieces_members {s : Text} {parts : List Text} (split : pieces (Span.scan s) = .ok parts) :
    ∀ piece ∈ parts, Whole piece := by
  induction s using Span.scanWith.induct Quote.of? generalizing parts with
  | case1 =>
      rw [Span.scan, Span.scanWith] at split
      cases split
      intro piece member
      rw [List.mem_singleton.mp member]
      exact .nil
  | case2 c s noQuote ih =>
      rw [scan_plain noQuote, pieces] at split
      cases inner : pieces (Span.scan s) with
      | error error => simp [inner, Except.map] at split
      | ok others =>
          have later := ih inner
          rw [inner] at split
          by_cases ends : endsStatement c = true
          · rw [if_pos ends] at split
            cases split
            exact List.forall_mem_cons.mpr ⟨.nil, later⟩
          · have goesOn : endsStatement c = false := Bool.eq_false_iff.mpr ends
            rw [if_neg ends] at split
            cases split
            exact prepend_members (fun piece whole => whole.cons noQuote goesOn) (.cons noQuote goesOn .nil) later
  | case3 c s quote opens missing =>
      obtain rfl := Quote.of?_eq_some opens
      rw [scan_unclosed missing] at split
      cases split
  | case4 c s quote opens body after found ih =>
      obtain rfl := Quote.of?_eq_some opens
      obtain rfl := cut?_append found
      have clear := cut?_before found
      rw [scan_closed clear, pieces] at split
      cases inner : pieces (Span.scan after) with
      | error error => simp [inner, Except.map] at split
      | ok others =>
          rw [inner] at split
          cases split
          have alone : Whole (Span.quoted quote body).text := by
            simpa using Whole.nil.span clear
          exact prepend_members (fun piece whole => whole.span clear) alone (ih inner)

theorem pieces_closed {s : Text} {found : List Text} (split : pieces (Span.scan s) = .ok found) : Closed s := by
  intro quote rest member
  obtain ⟨before, after, spans⟩ := List.append_of_mem member
  rw [spans] at split
  have refused : ∀ front : List Span, ∃ error, pieces (front ++ .unclosed quote rest :: after) = .error error := by
    intro front
    induction front with
    | nil => exact ⟨_, rfl⟩
    | cons span front ih =>
        obtain ⟨error, failed⟩ := ih
        cases span with
        | plain c => exact ⟨error, by simp [pieces, failed, Except.map]⟩
        | quoted other body => exact ⟨error, by simp [pieces, failed, Except.map]⟩
        | unclosed other body => exact ⟨_, rfl⟩
  obtain ⟨error, failed⟩ := refused before
  rw [failed] at split
  cases split

theorem splitStatements_eq_ok {line : Text} {statements : List Text} :
    splitStatements line = .ok statements ↔
      ∃ found, pieces (Span.scan line) = .ok found ∧ statements = (found.map trim).filter (· ≠ []) := by
  unfold splitStatements
  cases pieces (Span.scan line) with
  | error error => exact ⟨nofun, nofun⟩
  | ok found =>
      constructor
      · intro split
        exact ⟨found, rfl, (Except.ok.inj split).symm⟩
      · rintro ⟨_, ⟨⟩, rfl⟩
        rfl

theorem splitStatements_separated {first second : Text} {statements : List Text} {mark : CodePoint}
    (ends : endsStatement mark = true)
    (split : splitStatements first = .ok statements) :
    splitStatements (first ++ mark :: second) = (splitStatements second).map (statements ++ ·) := by
  obtain ⟨found, whole, rfl⟩ := splitStatements_eq_ok.mp split
  have closed := pieces_closed whole
  have noQuote : Quote.of? mark = none := by
    simp only [endsStatement, Bool.or_eq_true, decide_eq_true_eq] at ends
    rcases ends with rfl | rfl <;> rfl
  obtain ⟨front, last, -, behind⟩ := closed.pieces_append
  have alone := behind []
  rw [List.append_nil, whole] at alone
  obtain rfl : found = front ++ [last] := by simpa [pieces, Except.map, prepend] using alone
  rw [splitStatements, closed.scan_append, scan_plain noQuote, behind, pieces, if_pos ends, splitStatements]
  cases pieces (Span.scan second) with
  | error error => rfl
  | ok others =>
      have joined : front ++ prepend last ([] :: others) = front ++ [last] ++ others := by simp [prepend]
      simp only [Except.map, joined, List.map_append, List.filter_append]

/-- The statements of two lines with a semicolon or a newline between them are those of the first line and then those of
the second one, and splitting fails exactly if it fails for the second line. Every statement of a line has something in
it, and is its own and only statement. -/
theorem splitStatements_stable (first second : Text) :
    (∀ statements (mark : CodePoint), splitStatements first = .ok statements → mark = ';' ∨ mark = '\n' →
      splitStatements (first ++ mark :: second) = (splitStatements second).map (statements ++ ·)) ∧
    ∀ statements, splitStatements first = .ok statements →
      ∀ statement ∈ statements, splitStatements statement = .ok [statement] ∧ statement ≠ [] := by
  constructor
  · intro statements mark split separator
    have ends : endsStatement mark = true := by rcases separator with rfl | rfl <;> rfl
    exact splitStatements_separated ends split
  · intro statements split statement member
    obtain ⟨trimmed, filled⟩ := splitStatements_trimmed split member
    obtain ⟨found, cut, rfl⟩ := splitStatements_eq_ok.mp split
    obtain ⟨among, -⟩ := List.mem_filter.mp member
    obtain ⟨piece, inside, rfl⟩ := List.mem_map.mp among
    have whole : Whole (trim piece) := (pieces_members cut piece inside).trim
    refine ⟨splitStatements_eq_ok.mpr ⟨_, whole.pieces, ?_⟩, filled⟩
    simp [trimmed, filled]

/-- Semicolons and a number sign in quotes, white space at the end of a quoted span, a blank statement, and a
second line whose quote is not closed. -/
theorem splitStatements_stable_quoted :
    splitStatements " x = 1 ; ; print '; ' " = .ok ["x = 1", "print '; '"] ∧
      splitStatements (" x = 1 ; ; print '; ' " ++ (.char '\n' :: "y = \x7b;" : Text)) =
        .error (.unclosedQuote .brace) ∧
      splitStatements "print '; '" = .ok ["print '; '"] := by
  have split : splitStatements " x = 1 ; ; print '; ' " = .ok ["x = 1", "print '; '"] := by cbv
  obtain ⟨composed, stable⟩ := splitStatements_stable " x = 1 ; ; print '; ' " "y = \x7b;"
  have unclosed : splitStatements "y = \x7b;" = .error (.unclosedQuote .brace) := by cbv
  have whole := composed _ '\n' split (.inr rfl)
  rw [unclosed] at whole
  exact ⟨split, whole, (stable _ split "print '; '" (by simp)).1⟩

end CommandScript.Text
