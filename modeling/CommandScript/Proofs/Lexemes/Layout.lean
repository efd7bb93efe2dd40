import CommandScript.Proofs.Comments.Stripping
import CommandScript.Proofs.Lexemes.Cuts
import CommandScript.Proofs.Lexemes.Matching

/-! What a text is cut into. The lexemes of a text stand in it in their order, each as it is spelled, with white space
between them and between a term and its index. -/

namespace CommandScript

namespace Lexeme

/-- A part of a text that is cut into lexemes. -/
inductive Part where
  | gap (c : CodePoint)
  | operator (spelling : Text)
  | quoted (quote : Quote) (body : Text)
  | term (text : Text)
  | index (inner : Text)

def Part.pieces : Part → List Text
  | gap c => [[c]]
  | operator spelling => [spelling]
  | quoted quote body => [(Span.quoted quote body).text]
  | term text => [text]
  | index inner => [[.char '['], inner, [.char ']']]

def written (parts : List Part) : Text := (parts.flatMap Part.pieces).flatten

/-- The lexemes in their order, and the parts that stand for them, with white space between the parts. -/
inductive Laid : List Lexeme → List Part → Prop
  | nil : Laid [] []
  | gap {c : CodePoint} {lexemes : List Lexeme} {parts : List Part} : Text.isBlank c = true → Laid lexemes parts →
      Laid lexemes (.gap c :: parts)
  | operator {op : Operator} {spelling : Text} {lexemes : List Lexeme} {parts : List Part} : Laid lexemes parts →
      Laid (.operator op spelling :: lexemes) (.operator spelling :: parts)
  | quoted {quote : Quote} {body : Text} {lexemes : List Lexeme} {parts : List Part} : Laid lexemes parts →
      Laid (.quoted body :: lexemes) (.quoted quote body :: parts)
  | term {text : Text} {lexemes : List Lexeme} {parts : List Part} : Laid lexemes parts →
      Laid (.term text none :: lexemes) (.term text :: parts)
  | indexed {text gap inner : Text} {lexemes : List Lexeme} {parts : List Part} : (∀ c ∈ gap, Text.isBlank c = true) →
      Laid lexemes parts → Laid (.term text (some inner) :: lexemes)
        (.term text :: (gap.map .gap ++ .index inner :: parts))
  | bracket {inner : Text} {lexemes : List Lexeme} {parts : List Part} : Laid lexemes parts →
      Laid (.bracket inner :: lexemes) (.index inner :: parts)

theorem Laid.gaps {gap : Text} (blank : ∀ c ∈ gap, Text.isBlank c = true) {lexemes : List Lexeme} {parts : List Part}
    (laid : Laid lexemes parts) : Laid lexemes (gap.map .gap ++ parts) := by
  induction gap with
  | nil => exact laid
  | cons c gap ih =>
      obtain ⟨first, others⟩ := List.forall_mem_cons.mp blank
      exact .gap first (ih others)

namespace Part

/-- The spans of a part are closed; an index may hold anything. -/
def Sound : Part → Prop
  | index _ => True
  | part => ∀ piece ∈ part.pieces, piece.Closed

def text (part : Part) : Text := part.pieces.flatten

theorem written_cons (part : Part) (parts : List Part) : written (part :: parts) = part.text ++ written parts := by
  simp [written, text]

/-- The parts make a text, which may lack the last bracket. -/
structure Cover (s : Text) (parts : List Part) : Prop where
  sound : ∀ part ∈ parts, part.Sound
  whole : written parts = s ∨ ∃ front inner, parts = front ++ [index inner] ∧ s = written front ++ .char '[' :: inner
  matched : Text.Matched 0 s → written parts = s ∧ ∀ inner, index inner ∈ parts → inner.Closed

namespace Cover

variable {s : Text} {parts : List Part}

theorem nil : Cover [] [] := ⟨by simp, .inl rfl, fun _ => ⟨rfl, by simp⟩⟩

theorem cons {part : Part} (sound : part.Sound) (cover : Cover s parts)
    (inside : Text.Matched 0 (part.text ++ s) → Text.Matched 0 s ∧ ∀ inner, part = index inner → inner.Closed) :
    Cover (part.text ++ s) (part :: parts) where
  sound := List.forall_mem_cons.mpr ⟨sound, cover.sound⟩
  whole := by
    rcases cover.whole with whole | ⟨front, inner, rfl, rfl⟩
    · exact .inl (by rw [written_cons, whole])
    · exact .inr ⟨part :: front, inner, rfl, by rw [written_cons, List.append_assoc]⟩
  matched := by
    intro matched
    obtain ⟨later, here⟩ := inside matched
    obtain ⟨whole, closed⟩ := cover.matched later
    refine ⟨by rw [written_cons, whole], fun inner member => ?_⟩
    rcases List.mem_cons.mp member with same | among
    · exact here inner same.symm
    · exact closed inner among

theorem plain (part : Part) (name : Text) (single : part.pieces = [name]) (unquoted : name.Unquoted)
    (noBracket : .char '[' ∉ name)
    (cover : Cover s parts) : Cover (name ++ s) (part :: parts) := by
  have text : part.text = name := by simp [Part.text, single]
  have sound : part.Sound := by
    cases part with
    | index inner => trivial
    | _ =>
        intro piece member
        rw [single, List.mem_singleton] at member
        exact member ▸ unquoted.closed
  rw [← text]
  refine cover.cons sound fun matched => ⟨?_, ?_⟩
  · exact Text.Matched.afterPlain name unquoted noBracket (text ▸ matched)
  · rintro inner rfl
    simp [pieces] at single

theorem gaps {gap : Text} (blank : ∀ c ∈ gap, Text.isBlank c = true) (cover : Cover s parts) :
    Cover (gap ++ s) (gap.map .gap ++ parts) := by
  induction gap with
  | nil => exact cover
  | cons c gap ih =>
      obtain ⟨first, others⟩ := List.forall_mem_cons.mp blank
      refine (ih others).plain (.gap c) [c] rfl ?_ ?_
      · simpa [Text.Unquoted] using blank_unquoted first
      · rw [List.mem_singleton]
        rintro rfl
        exact absurd first (by decide)

theorem quoted {quote : Quote} {body : Text} (clear : ∀ c ∈ body, c ≠ quote.closing) (cover : Cover s parts) :
    Cover (quote.opening :: (body ++ quote.closing :: s)) (.quoted quote body :: parts) := by
  have shape : quote.opening :: (body ++ quote.closing :: s) = (Part.quoted quote body).text ++ s := by
    simp [Part.text, pieces, Span.text]
  have sound : (Part.quoted quote body).Sound := by
    intro piece member
    obtain rfl := List.mem_singleton.mp member
    exact (Text.closed_quoted clear).mpr .nil
  rw [shape]
  refine cover.cons sound fun matched => ⟨?_, fun inner same => ?_⟩
  · rw [← shape] at matched
    exact (matched.afterQuote clear).2
  · cases same

theorem term {c : CodePoint} {rest name after : Text} (starts : StartsTerm c) (cut : cutTerm ' ' c rest = (name, after))
    (cover : Cover after parts) :
    ∃ gap : Text, (∀ white ∈ gap, Text.isBlank white = true) ∧
      Cover (c :: rest) (.term (Text.trim (c :: name)) :: (gap.map .gap ++ parts)) := by
  obtain ⟨visible, noQuote, noBracket, -⟩ := starts
  have start : Text.trimLeft (c :: name) = c :: name := List.dropWhile_cons_of_neg (by simp [visible])
  obtain ⟨gap, shape, blank⟩ := Text.trimRight_gap (Text.trimLeft (c :: name))
  rw [← Text.trim, start] at shape
  obtain ⟨unquoted, whole⟩ := cutTerm_whole ' ' c rest
  have noIndex := Stops.notMem_cutTerm (.inr (.inr rfl) : Stops '[') ' ' c rest
  rw [cut] at unquoted whole noIndex
  have all : ∀ other ∈ c :: name, Quote.of? other = none ∧ other ≠ '[' :=
    List.forall_mem_cons.mpr ⟨⟨noQuote, noBracket⟩,
      fun other member => ⟨unquoted other member, fun same => noIndex (same ▸ member)⟩⟩
  have among : ∀ other ∈ Text.trim (c :: name), Quote.of? other = none ∧ other ≠ '[' :=
    fun other member => all other (shape ▸ List.mem_append_left gap member)
  refine ⟨gap, blank, ?_⟩
  have text : c :: rest = Text.trim (c :: name) ++ (gap ++ after) := by
    rw [← List.append_assoc, ← shape, whole, List.cons_append]
  rw [text]
  exact (cover.gaps blank).plain (.term _) _ rfl (fun other member => (among other member).1) fun member =>
    (among '[' member).2 rfl

theorem index {rest : Text} {others : List Lexeme} (scanned : scan (cutBracket 0 rest).2 = .ok others)
    (found : ∃ parts, Laid others parts ∧ Cover (cutBracket 0 rest).2 parts) :
    ∃ parts, Laid others parts ∧ Cover (.char '[' :: rest) (.index (cutBracket 0 rest).1 :: parts) := by
  have enter (matched : Text.Matched 0 (.char '[' :: rest)) : Text.Matched 1 rest := by
    rcases matched.tail rfl with ⟨-, deeper⟩ | ⟨other, -⟩ | ⟨other, -⟩
    · exact deeper
    · cases other
    · exact absurd rfl other
  rcases cutBracket_cases 0 rest with ⟨inner, after, closes⟩ | open_
  · obtain ⟨parts, laid, cover⟩ := found
    rw [closes.cut] at cover ⊢
    have shape : .char '[' :: rest = (Part.index inner).text ++ after := by simp [closes.1, Part.text, pieces]
    refine ⟨parts, laid, ?_⟩
    rw [shape]
    refine cover.cons trivial fun matched => ?_
    obtain ⟨inner', after', closes', closed, later⟩ := closesAt_matched (enter (shape ▸ matched))
    obtain ⟨rfl, rfl⟩ := Prod.mk.inj (closes.cut.symm.trans closes'.cut)
    refine ⟨later, ?_⟩
    rintro _ ⟨⟩
    exact closed
  · rw [open_] at scanned ⊢
    rw [scan] at scanned
    obtain rfl := Except.ok.inj scanned
    refine ⟨[], .nil, by simp [Sound], .inr ⟨[], rest, rfl, rfl⟩, fun matched => ?_⟩
    obtain ⟨inner, after, closes, -⟩ := closesAt_matched (enter matched)
    obtain ⟨same, -⟩ := Prod.mk.inj (closes.cut.symm.trans open_)
    have size := congrArg List.length closes.1
    rw [same, List.length_append, List.length_cons] at size
    omega

end Cover

end Part

theorem scan_covered {s : Text} {lexemes : List Lexeme} (scanned : scan s = .ok lexemes) :
    ∃ parts, Laid lexemes parts ∧ Part.Cover s parts := by
  fun_induction scan s generalizing lexemes
  case case1 =>
      cases scanned
      exact ⟨[], .nil, .nil⟩
  case case2 c rest blank ih =>
      obtain ⟨parts, laid, cover⟩ := ih scanned
      have first : ∀ other ∈ [c], Text.isBlank other = true := by simpa using blank
      exact ⟨_, laid.gaps first, cover.gaps first⟩
  case case3 c rest visible op pair ih =>
      obtain ⟨others, later, rfl⟩ := map_cons_eq_ok.mp scanned
      obtain ⟨parts, laid, cover⟩ := ih later
      cases rest with
      | nil => cases pair
      | cons next more =>
          obtain ⟨first, second⟩ := Operator.ofPair?_unquoted pair
          have noBracket : .char '[' ∉ [c, next] := by
            simp only [List.head?_cons, Option.bind_some] at pair
            unfold Operator.ofPair? at pair
            split at pair
            all_goals first | decide | cases pair
          exact ⟨_, laid.operator,
            cover.plain (.operator _) [c, next] rfl (by simp [Text.Unquoted, first, second]) noBracket⟩
  case case4 => cases scanned
  case case5 c rest visible noPair quote opens body after found ih =>
      obtain ⟨others, later, rfl⟩ := map_cons_eq_ok.mp scanned
      obtain ⟨parts, laid, cover⟩ := ih later
      obtain rfl := Quote.of?_eq_some opens
      rw [Text.cut?_append found]
      exact ⟨_, laid.quoted, cover.quoted (Text.cut?_before found)⟩
  case case6 => cases scanned
  case case7 rest inner filled visible noPair noQuote ih =>
      obtain ⟨others, later, rfl⟩ := map_cons_eq_ok.mp scanned
      obtain ⟨parts, laid, cover⟩ := Part.Cover.index later (ih later)
      exact ⟨_, laid.bracket, cover⟩
  case case8 c rest visible noPair noQuote noBracket op single ih =>
      obtain ⟨others, later, rfl⟩ := map_cons_eq_ok.mp scanned
      obtain ⟨parts, laid, cover⟩ := ih later
      refine ⟨_, laid.operator, cover.plain (.operator _) [c] rfl (by simpa [Text.Unquoted] using noQuote) ?_⟩
      simpa using Ne.symm noBracket
  case case9 => cases scanned
  case case10 c rest visible noPair noQuote noBracket noOperator name after follows inner filled ih =>
      obtain ⟨others, later, rfl⟩ := map_cons_eq_ok.mp scanned
      obtain ⟨parts, laid, cover⟩ := Part.Cover.index later (ih later)
      have starts : StartsTerm c := ⟨by simpa using visible, noQuote, noBracket, noOperator⟩
      have cut : cutTerm ' ' c rest = ((cutTerm ' ' c rest).1, .char '[' :: after) := Prod.ext rfl follows
      obtain ⟨gap, blank, whole⟩ := cover.term starts cut
      exact ⟨_, laid.indexed blank, whole⟩
  case case11 c rest visible noPair noQuote noBracket noOperator name noIndex ih =>
      obtain ⟨others, later, rfl⟩ := map_cons_eq_ok.mp scanned
      obtain ⟨parts, laid, cover⟩ := ih later
      have starts : StartsTerm c := ⟨by simpa using visible, noQuote, noBracket, noOperator⟩
      obtain ⟨gap, blank, whole⟩ := cover.term starts rfl
      exact ⟨_, (laid.gaps blank).term, whole⟩

/-- No quoted span of the text is cut where a piece begins or ends. -/
def Uncut (text : Text) (parts : List Part) : Prop :=
  ∀ front, front <+: parts.flatMap Part.pieces → ¬text.CutAt front.flatten.length

/-- Every index is closed by a bracket of the text that stands in none of its quoted spans. -/
def Shut (text : Text) (parts : List Part) : Prop :=
  ∀ front inner, front ++ [.index inner] <+: parts →
    text[(written front ++ .char '[' :: inner).length]? = some (']' : CodePoint) ∧
      ¬text.CutAt (written front ++ .char '[' :: inner).length

theorem piece_part {parts : List Part} {front : List Text} {piece : Text}
    (inside : front ++ [piece] <+: parts.flatMap Part.pieces) :
    ∃ before part within, before ++ [part] <+: parts ∧ within ++ [piece] <+: part.pieces ∧
      front = before.flatMap Part.pieces ++ within := by
  induction parts generalizing front with
  | nil => simp at inside
  | cons first rest ih =>
      rw [List.flatMap_cons] at inside
      rcases List.prefix_or_prefix_of_prefix inside (List.prefix_append ..) with within | ⟨more, shape⟩
      · exact ⟨[], first, front, by simp, within, rfl⟩
      cases more using List.reverseRecOn with
      | nil => exact ⟨[], first, front, by simp, ⟨[], by simpa using shape.symm⟩, rfl⟩
      | append_singleton more last =>
          rw [← List.append_assoc] at shape
          obtain ⟨rfl, rfl⟩ := List.append_singleton_inj.mp shape
          rw [List.append_assoc, List.prefix_append_right_inj] at inside
          obtain ⟨before, part, within, among, here, rfl⟩ := ih inside
          exact ⟨first :: before, part, within, List.cons_prefix_cons.mpr ⟨rfl, among⟩, here, by simp⟩

namespace Part.Cover

variable {s : Text} {parts : List Part}

theorem uncut (cover : Cover s parts) (whole : written parts = s)
    (ends : ∀ front inner, front ++ [.index inner] <+: parts →
      Text.Closed inner ∨ ¬s.CutAt (written front ++ .char '[' :: inner).length) : Uncut s parts := by
  have apart (front : List Text) (piece : Text) (inside : front ++ [piece] <+: parts.flatMap pieces) :
      piece.Closed ∨ ¬s.CutAt (front ++ [piece]).flatten.length := by
    obtain ⟨before, part, within, among, here, rfl⟩ := piece_part inside
    have sound := cover.sound part (among.subset (by simp))
    have member : piece ∈ part.pieces := here.subset (by simp)
    cases part with
    | index inner =>
        obtain ⟨back, shape⟩ := here
        rcases within with _ | ⟨opening, _ | ⟨text, _ | ⟨closing, more⟩⟩⟩
        · obtain ⟨rfl, -⟩ := List.cons.inj shape
          exact .inl ((Text.closed_plain rfl).mpr .nil)
        · obtain ⟨rfl, rfl, -⟩ : opening = [.char '['] ∧ piece = inner ∧ back = [[.char ']']] := by
            simpa [pieces] using shape
          simpa [written] using ends before piece among
        · obtain ⟨-, shape⟩ := List.cons.inj shape
          obtain ⟨-, shape⟩ := List.cons.inj shape
          obtain ⟨rfl, -⟩ := List.cons.inj shape
          exact .inl ((Text.closed_plain rfl).mpr .nil)
        · simp [pieces] at shape
    | _ => exact .inl (sound piece member)
  have pieces := Text.not_cutAt_pieces .nil
    (fun front piece inside => by simpa [← whole, written] using apart front piece inside)
  intro front inside
  simpa [← whole, written] using pieces front inside

end Part.Cover

/-- Lexemes lose nothing of a text: they stand in it in their order, as they are spelled, with white space
between them, unless the last bracket is missing behind an index that runs to the end. The text is made again
and none of its quoted spans is cut exactly if every index is closed by a bracket outside the quoted spans; and
that is so if the quotes that stand in brackets hold brackets in pairs only. -/
theorem scan_lossless {text : Text} {lexemes : List Lexeme} (balanced : Text.checkBalance text = .ok ())
    (scanned : scan text = .ok lexemes) :
    ∃ parts, Laid lexemes parts ∧ (written parts = text ∨ written parts = text ++ ([']'] : Text)) ∧
      (written parts = text ∧ Uncut text parts ↔ Shut text parts) ∧
      (Text.PairedInBrackets 0 (Span.scan text) → written parts = text ∧ Uncut text parts) := by
  obtain ⟨parts, laid, cover⟩ := scan_covered scanned
  refine ⟨parts, laid, ?_, ⟨?_, ?_⟩, ?_⟩
  · refine cover.whole.imp_right ?_
    rintro ⟨front, inner, rfl, rfl⟩
    simp [written, Part.pieces]
  · rintro ⟨whole, uncut⟩ front inner ⟨back, rfl⟩
    have shape : text = (written front ++ .char '[' :: inner) ++ .char ']' :: written back := by
      rw [← whole]
      simp [written, Part.pieces]
    have cut := uncut (front.flatMap Part.pieces ++ [[.char '['], inner])
      ⟨[.char ']'] :: back.flatMap Part.pieces, by simp [Part.pieces]⟩
    refine ⟨?_, by simpa [written] using cut⟩
    rw [shape, List.getElem?_append_right (Nat.le_refl _), Nat.sub_self]
    rfl
  · intro shut
    have whole : written parts = text := by
      refine cover.whole.resolve_right ?_
      rintro ⟨front, inner, rfl, rfl⟩
      have closes := (shut front inner List.prefix_rfl).1
      simp at closes
    exact ⟨whole, cover.uncut whole fun front inner inside => .inr (shut front inner inside).2⟩
  · intro paired
    obtain ⟨whole, closed⟩ := cover.matched ⟨paired, 0, 0, Text.counted_balanced balanced⟩
    refine ⟨whole, cover.uncut whole fun front inner inside => .inl (closed inner (inside.subset ?_))⟩
    simp

/-- White space before an index, brackets in pairs in its quotes, others in quotes outside, and a bracket that
follows no term. -/
theorem scan_lossless_quoted :
    let text : Text := "f(a [1 + '[]'], \"]\") >= [x]"
    let lexemes : List Lexeme := [.term "f" none, .operator .openParen "(", .term "a" (some "1 + '[]'"),
      .operator .comma ",", .quoted "]", .operator .closeParen ")",
        .operator (.binary (.comparison .atLeast)) ">=", .bracket "x"]
    Text.checkBalance text = .ok () ∧ scan text = .ok lexemes ∧
      ∃ parts, Laid lexemes parts ∧ written parts = text ∧ Uncut text parts := by
  intro text lexemes
  have balanced : Text.checkBalance text = .ok () := by decide +kernel
  have scanned : scan text = .ok lexemes := by decide +kernel
  obtain ⟨parts, laid, -, -, whole⟩ := scan_lossless balanced scanned
  exact ⟨balanced, scanned, parts, laid, whole (by decide +kernel)⟩

/-- A bracket in quotes that is not closed there takes the closing bracket of the index into the index. -/
example : Text.checkBalance "['[']" = .ok () ∧ scan "['[']" = .ok [.bracket "'[']"] := by decide +kernel

end Lexeme

end CommandScript
