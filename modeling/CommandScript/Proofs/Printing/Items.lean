import CommandScript.Print.Items
import CommandScript.Proofs.Integers.Programs
import CommandScript.Proofs.Literals.Quoted
import CommandScript.Proofs.Passes.References

/-! The line of a print command that is made of quoted texts and names. It is read back item by item, whatever white
space stands between the items, and each item gives its text and its separator. In the end one blank is dropped from
the whole text, be it a separator or the last character of a quoted text or a value. -/

namespace CommandScript

variable {σ : Type}

/-- The name holds a text that stands for a value, and this is how the value shows. -/
def Store.Shows (store : Store) (name shown : Text) : Prop :=
  ∃ stored value, store.lookup name = some stored ∧ Value.classify stored = .ok value ∧ value.render = .ok shown

namespace BareName

variable {name : Text} (bare : BareName name)

include bare

theorem noNumber : Number.isNumber name = false := by
  have noDouble := bare.noDouble
  rw [parseDouble, bare.plain.trimmed] at noDouble
  rw [Number.isNumber]
  cases decimal : Number.parseDecimal name with
  | none => rfl
  | some d => simp [decimal] at noDouble

theorem cutTerm {more : Text} (inside : ∀ c ∈ more, c ∈ name) (older last : CodePoint) :
    Lexeme.cutTerm older last more = (more, []) := by
  have plain : ∀ c ∈ more, Lexeme.endsTerm c = false := by
    intro c member
    obtain ⟨-, noOperator, noQuote, -, -, noBracket, -⟩ := bare.neutral c (inside c member)
    simp [Lexeme.endsTerm, noOperator, Quote.isOpening, noQuote, noBracket]
  have cut := @Lexeme.cutTerm_plain more [] plain (fun older last => rfl) older last
  rwa [List.append_nil] at cut

theorem scanned : Lexeme.scan name = .ok [.term name none] := by
  obtain ⟨c, more, rfl⟩ := List.exists_cons_of_ne_nil bare.filled
  obtain ⟨visible, noOperator, noQuote, -, -, noBracket, -⟩ := bare.neutral c (by simp)
  have starts : Lexeme.StartsTerm c := ⟨visible, noQuote, noBracket, noOperator⟩
  rw [starts.scan (bare.cutTerm (fun other => List.mem_cons_of_mem c) ' ' c) nofun, bare.plain.trimmed, Lexeme.scan]
  rfl

theorem parsed : Expr.parse name = .ok (.term name) := by
  have unquoted : name.Unquoted := fun c member => (bare.neutral c member).2.2.1
  have balanced : Text.checkBalance name = .ok () :=
    Text.checkBalance_unquoted unquoted (Text.countMarks_uncounted fun c member => (bare.neutral c member).2.2.2)
  have tokens : Token.tokenize name = .ok [{ lexeme := .term name none }] := by
    simp only [Token.tokenize, balanced, bare.scanned, bind, Except.bind]
    rfl
  exact Expr.parse_eq_ok.mpr ⟨_, tokens, .term bare.filled, .term name⟩

variable (env : Env σ) {session : Session σ}

theorem valueOf_stored {stored : Text} {value : Value} (known : session.store.lookup name = some stored)
    (classified : Value.classify stored = .ok value) (room : session.depth + 10 ≤ Run.callLimit) :
    Expr.valueOf env name session = .ok value session := by
  have read := Expr.valueOf_parsed bare.plain.trimmed bare.noNumber bare.noTruth bare.parsed env session
  rw [show (Expr.term name).callsNeeded = 10 from rfl, if_neg (Nat.not_lt.mpr room)] at read
  exact read.trans (bare.evalTerm_stored env known classified)

theorem valueText_shown (style : PrintStyle) {shown : Text} (shows : session.store.Shows name shown)
    (room : session.depth + 10 ≤ Run.callLimit) : style.valueText env name session = .ok shown session := by
  obtain ⟨stored, value, known, classified, rendered⟩ := shows
  have valued := bare.valueOf_stored env known classified room
  simp only [PrintStyle.valueText, Expr.evaluate, Bool.false_eq_true, if_false, Run.onError, Run.attempt, bind,
    EStateM.bind, valued]
  cases value with
  | int n =>
      simp only [rendered]
      rfl
  | real _ | text _ | buffer _ =>
      cases rendered
      rfl

end BareName

/-- An item of a print command whose text is known from the variables. -/
inductive PrintEntry where
  | quoted (quote : Quote) (body : Text) (clear : quote.closing ∉ body)
  | named (name : Text) (bare : BareName name)

namespace PrintEntry

def text : PrintEntry → Text
  | quoted quote body _ => quote.opening :: (body ++ [quote.closing])
  | named name _ => name

def item : PrintEntry → PrintItem
  | quoted _ body _ => .literal body
  | named name _ => .word name none

def shown (values : Text → Text) : PrintEntry → Text
  | quoted _ body _ => body
  | named name _ => values name

def isNamed : PrintEntry → Bool
  | quoted _ _ _ => false
  | named _ _ => true

/-- Entries with white space between them, and any white space around them. -/
inductive Laid : List PrintEntry → Text → Prop
  | nil {gap : Text} : (∀ c ∈ gap, Text.isBlank c = true) → Laid [] gap
  | cons {gap rest : Text} {entry : PrintEntry} {entries : List PrintEntry} : (∀ c ∈ gap, Text.isBlank c = true) →
      (∀ c ∈ rest.head?, Text.isBlank c = true) → Laid entries rest →
        Laid (entry :: entries) (gap ++ (entry.text ++ rest))

theorem scan_gap (command : Text) {gap : Text} (blank : ∀ c ∈ gap, Text.isBlank c = true) (rest : Text) :
    PrintItem.scan command (gap ++ rest) = PrintItem.scan command rest := by
  induction gap with
  | nil => rfl
  | cons c gap ih =>
      rw [List.cons_append, PrintItem.scan, if_pos (blank c (by simp))]
      exact ih fun other member => blank other (by simp [member])

theorem readWord_bare (command : Text) {name rest : Text} (bare : BareName name)
    (apart : ∀ c ∈ rest.head?, Text.isBlank c = true) :
    PrintItem.readWord command (name ++ rest) = (.word name none, rest) := by
  have inside : ∀ c ∈ name, (!(Text.isBlank c || decide (c = '('))) = true := by
    intro c member
    obtain ⟨visible, -, -, noParen, -⟩ := bare.neutral c member
    simp [visible, noParen]
  have outside : ∀ c ∈ rest.head?, (!(Text.isBlank c || decide (c = '('))) = false := by
    intro c first
    simp [apart c first]
  have word : (name ++ rest).takeWhile (fun c => !(Text.isBlank c || decide (c = '('))) = name := by
    rw [List.takeWhile_append_of_pos inside]
    cases rest with
    | nil => simp
    | cons c rest => simp only [List.takeWhile_cons, outside c rfl, Bool.false_eq_true, if_false, List.append_nil]
  have after : (name ++ rest).dropWhile (fun c => !(Text.isBlank c || decide (c = '('))) = rest := by
    rw [List.dropWhile_append_of_pos inside]
    cases rest with
    | nil => rfl
    | cons c rest => simp only [List.dropWhile_cons, outside c rfl, Bool.false_eq_true, if_false]
  have noFormat : rest.head? ≠ some (.char '(') := fun paren => absurd (apart '(' paren) (by decide)
  simp only [PrintItem.readWord, word, after, ne_eq, noFormat, not_false_eq_true, if_true]

theorem scan_entry (command : Text) (entry : PrintEntry) {rest : Text}
    (apart : ∀ c ∈ rest.head?, Text.isBlank c = true) :
    PrintItem.scan command (entry.text ++ rest) = entry.item :: PrintItem.scan command rest := by
  cases entry with
  | quoted quote body clear =>
      have visible : Text.isBlank quote.opening = false := by cases quote <;> decide
      have cut : Text.cut? quote.closing (body ++ quote.closing :: rest) = some (body, rest) :=
        Text.cut?_word fun c member same => clear (same ▸ member)
      rw [text, List.cons_append, List.append_assoc, List.singleton_append, PrintItem.scan, if_neg (by simp [visible])]
      split
      · rename_i found opens
        obtain rfl : quote = found := Option.some.inj ((Quote.of?_opening quote).symm.trans opens)
        split
        · rename_i missing
          rw [cut] at missing
          cases missing
        · rename_i inner after found
          rw [cut] at found
          cases found
          rfl
      · rename_i none
        rw [Quote.of?_opening] at none
        cases none
  | named name bare =>
      have word := readWord_bare command bare apart
      obtain ⟨c, more, rfl⟩ := List.exists_cons_of_ne_nil bare.filled
      obtain ⟨visible, -, noQuote, noParen, -⟩ := bare.neutral c (by simp)
      have left : (more ++ rest).drop ((more ++ rest).length - rest.length) = rest := by
        rw [List.length_append, Nat.add_sub_cancel, List.drop_left]
      rw [List.cons_append] at word
      rw [text, List.cons_append, PrintItem.scan, if_neg (by simp [visible])]
      split
      · rename_i found opens
        rw [noQuote] at opens
        cases opens
      · rw [if_neg noParen, word]
        simp only [left, item]

theorem Laid.scan (command : Text) {entries : List PrintEntry} {line : Text} (laid : Laid entries line) :
    PrintItem.scan command line = entries.map item := by
  induction laid with
  | @nil gap blank =>
      rw [← List.append_nil gap, scan_gap command blank, PrintItem.scan]
      rfl
  | cons blank apart laid ih => rw [scan_gap command blank, scan_entry command _ apart, ih, List.map_cons]

end PrintEntry

namespace PrintStyle

open PrintEntry (shown isNamed)

def entryText (style : PrintStyle) (values : Text → Text) (entry : PrintEntry) : Text :=
  if style.verbatim && !entry.isNamed then entry.shown values else entry.shown values ++ style.separator

theorem print_entryText (values : Text → Text) (entry : PrintEntry) :
    print.entryText values entry = entry.shown values ++ ([' '] : Text) := rfl

theorem printf_entryText (values : Text → Text) (entry : PrintEntry) :
    printf.entryText values entry = entry.shown values ++ if entry.isNamed then ([' '] : Text) else [] := by
  cases entry with
  | quoted quote body clear => exact (List.append_nil _).symm
  | named name bare => rfl

theorem storing_entryText {style : PrintStyle} (storing : style ∈ [sprint, sprintf]) (values : Text → Text)
    (entry : PrintEntry) : style.entryText values entry = entry.shown values := by
  rcases List.mem_pair.mp storing with rfl | rfl
  · exact List.append_nil _
  · cases entry with
    | quoted quote body clear => rfl
    | named name bare => exact List.append_nil _

theorem dropLastBlank_blank (s : Text) : dropLastBlank (s ++ ([' '] : Text)) = s := by
  simp [dropLastBlank]

variable (env : Env σ) {session : Session σ} {entries : List PrintEntry} {values : Text → Text}

theorem itemsText_entries (style : PrintStyle)
    (stored : ∀ name bare, .named name bare ∈ entries → session.store.Shows name (values name))
    (room : session.depth + 10 ≤ Run.callLimit) :
    style.itemsText env (entries.map PrintEntry.item) session =
      .ok (entries.flatMap (style.entryText values)) session := by
  induction entries with
  | nil => rfl
  | cons entry rest ih =>
      have later := ih fun name bare member => stored name bare (List.mem_cons_of_mem entry member)
      have first : style.itemText env entry.item session = .ok (style.entryText values entry) session := by
        cases entry with
        | quoted quote body clear => simp [PrintEntry.item, itemText, entryText, shown, isNamed, pure, EStateM.pure]
        | named name bare =>
            have value := bare.valueText_shown env style (stored name bare (by simp)) room
            simp [PrintEntry.item, itemText, entryText, shown, isNamed, bind, EStateM.bind, value, pure, EStateM.pure]
      simp only [List.map_cons, itemsText, bind, EStateM.bind, first, later, pure, EStateM.pure, List.flatMap_cons]

theorem print_joined (values : Text → Text) (entries : List PrintEntry) :
    dropLastBlank (entries.flatMap (print.entryText values)) = Text.join " " (entries.map (shown values)) := by
  have spaced : ∀ entry rest, (entry :: rest).flatMap (print.entryText values) =
      Text.join " " ((entry :: rest).map (shown values)) ++ ([' '] : Text) := by
    intro entry rest
    induction rest generalizing entry with
    | nil => simp [print_entryText, Text.join]
    | cons next rest ih =>
        rw [List.flatMap_cons, ih next, print_entryText]
        simp [Text.join]
  cases entries with
  | nil => rfl
  | cons entry rest => rw [spaced, dropLastBlank_blank]

def spaced (values : Text → Text) : List PrintEntry → Text
  | [] => []
  | [entry] => entry.shown values
  | entry :: next :: rest => printf.entryText values entry ++ spaced values (next :: rest)

theorem printf_spaced (values : Text → Text) (entries : List PrintEntry) :
    entries.flatMap (printf.entryText values) =
      spaced values entries ++ if entries.getLast?.any isNamed then ([' '] : Text) else [] := by
  induction entries with
  | nil => rfl
  | cons entry rest ih =>
      cases rest with
      | nil =>
          rw [List.flatMap_singleton, printf_entryText]
          rfl
      | cons next rest =>
          have unfolded : spaced values (entry :: next :: rest) =
              printf.entryText values entry ++ spaced values (next :: rest) := rfl
          rw [List.flatMap_cons, ih, List.getLast?_cons_cons, unfolded, List.append_assoc]

/-- What the four commands make of a line of quoted texts and names with stored values. A blank at the very end is
dropped from what `sprint` and `sprintf` join, and from what `printf` joins when a quoted text comes last: there it is
not one of the blanks that the command puts in. -/
theorem render_entries (values : Text → Text) {line : Text} (laid : PrintEntry.Laid entries line)
    (stored : ∀ name bare, .named name bare ∈ entries → session.store.Shows name (values name))
    (room : session.depth + 10 ≤ Run.callLimit) :
    print.render env line session = .ok (Text.join " " (entries.map (shown values))) session ∧
      (∀ style ∈ [sprint, sprintf],
        style.render env line session = .ok (dropLastBlank (entries.map (shown values)).flatten) session) ∧
      printf.render env line session =
        .ok (if entries.getLast?.any isNamed then spaced values entries else dropLastBlank (spaced values entries))
          session := by
  have rendered : ∀ style : PrintStyle, style.render env line session =
      .ok (dropLastBlank (entries.flatMap (style.entryText values))) session := by
    intro style
    have items := itemsText_entries env style stored room
    simp only [render, laid.scan, bind, EStateM.bind, items, pure, EStateM.pure]
  refine ⟨?_, ?_, ?_⟩
  · rw [rendered, print_joined]
  · intro style storing
    rw [rendered, funext (storing_entryText storing values), List.flatMap_def]
  · rw [rendered, printf_spaced]
    split
    · rw [dropLastBlank_blank]
    · rw [List.append_nil]

def greetingSession : Session Unit := (Session.start {} ()).put "x" "\"go\""

/-- The blank of the last text is kept by `print` alone. -/
theorem render_entries_greeting :
    print.render {} "'a ' x 'b '" greetingSession = .ok "a  go b " greetingSession ∧
      sprint.render {} "'a ' x 'b '" greetingSession = .ok "a gob" greetingSession ∧
      printf.render {} "'a ' x 'b '" greetingSession = .ok "a go b" greetingSession := by
  have bare : BareName "x" := Assignment.x.bare
  let first : PrintEntry := .quoted .single "a " (by decide)
  let last : PrintEntry := .quoted .single "b " (by decide)
  have spaced (rest : Text) : ∀ c ∈ (.char ' ' :: rest : Text).head?, Text.isBlank c = true := by
    rintro _ ⟨⟩
    decide
  have blank : ∀ c ∈ [.char ' '], Text.isBlank c = true := List.forall_mem_singleton.mpr (by decide)
  have nothing : ∀ c ∈ ([] : Text), Text.isBlank c = true := List.forall_mem_nil _
  have tail : PrintEntry.Laid [last] " 'b '" := .cons blank nofun (.nil nothing)
  have middle : PrintEntry.Laid [.named "x" bare, last] " x 'b '" := .cons blank (spaced "'b '") tail
  have laid : PrintEntry.Laid [first, .named "x" bare, last] "'a ' x 'b '" := .cons nothing (spaced "x 'b '") middle
  have stored : ∀ name bare', .named name bare' ∈ [first, .named "x" bare, last] →
      greetingSession.store.Shows name "go" := by
    intro name bare' member
    obtain rfl : name = "x" := by simpa [first, last] using member
    exact ⟨"\"go\"", .text "go", by decide, Value.classify_quoted "go", rfl⟩
  have rendered := render_entries {} (fun _ => "go") laid stored (by decide)
  exact ⟨rendered.1, rendered.2.1 sprint List.mem_cons_self, rendered.2.2⟩

end PrintStyle

end CommandScript
