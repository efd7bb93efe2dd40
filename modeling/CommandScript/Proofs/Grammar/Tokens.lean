import Mathlib.Data.List.Chain
import Mathlib.Data.List.TakeWhile
import CommandScript.Proofs.Grammar.Shape

/-! What the tokens of a text are like. Operators are spelled as they may be, terms are not empty, and marks stand on
tokens that start an operand; the text inside brackets is shorter than the text around them. -/

namespace CommandScript

theorem bind_eq_ok {ε α β : Type} {first : Except ε α} {next : α → Except ε β} {value : β} :
    first >>= next = .ok value ↔ ∃ middle, first = .ok middle ∧ next middle = .ok value := by
  cases first with
  | error error => exact ⟨nofun, nofun⟩
  | ok middle =>
      refine ⟨fun given => ⟨middle, rfl, given⟩, ?_⟩
      rintro ⟨_, ⟨⟩, given⟩
      exact given

theorem map_cons_eq_ok {ε α : Type} {first : α} {result : Except ε (List α)} {all : List α} :
    result.map (first :: ·) = .ok all ↔ ∃ rest, result = .ok rest ∧ all = first :: rest := by
  cases result with
  | error error => exact ⟨nofun, nofun⟩
  | ok rest =>
      refine ⟨fun given => ⟨rest, rfl, (Except.ok.inj given).symm⟩, ?_⟩
      rintro ⟨_, ⟨⟩, rfl⟩
      rfl

theorem Text.trim_ne_nil {c : CodePoint} (visible : Text.isBlank c = false) (more : Text) :
    Text.trim (c :: more) ≠ [] := by
  have start : Text.trimLeft (c :: more) = c :: more := List.dropWhile_cons_of_neg (by simp [visible])
  intro empty
  rw [Text.trim, start, Text.trimRight, List.reverse_eq_nil_iff, List.dropWhile_eq_nil_iff] at empty
  have blank := empty c (by simp)
  rw [visible] at blank
  cases blank

namespace Lexeme

def inside? : Lexeme → Option Text
  | term _ index => index
  | bracket inner => some inner
  | _ => none

structure Regular (size : Nat) (lexeme : Lexeme) : Prop where
  spelled {op : Operator} {spelling : Text} : lexeme = operator op spelling → op.Spelled spelling
  filled {text : Text} {index : Option Text} : lexeme = term text index → text ≠ []
  shorter {inner : Text} : lexeme.inside? = some inner → inner.length < size

namespace Regular

variable {size larger : Nat}

theorem mono {lexeme : Lexeme} (regular : lexeme.Regular size) (le : size ≤ larger) : lexeme.Regular larger where
  spelled := regular.spelled
  filled := regular.filled
  shorter found := Nat.lt_of_lt_of_le (regular.shorter found) le

theorem operator {op : Operator} {spelling : Text} (spelled : op.Spelled spelling) :
    (Lexeme.operator op spelling).Regular size where
  spelled := by rintro _ _ ⟨⟩; exact spelled
  filled := nofun
  shorter := nofun

theorem quoted (body : Text) : (Lexeme.quoted body).Regular size where
  spelled := nofun
  filled := nofun
  shorter := nofun

theorem bracket {inner : Text} (shorter : inner.length < size) : (Lexeme.bracket inner).Regular size where
  spelled := nofun
  filled := nofun
  shorter := by rintro _ ⟨⟩; exact shorter

theorem term {text : Text} {index : Option Text} (filled : text ≠ [])
    (shorter : ∀ inner, index = some inner → inner.length < size) : (Lexeme.term text index).Regular size where
  spelled := nofun
  filled := by rintro _ _ ⟨⟩; exact filled
  shorter := shorter _

theorem cons {lexeme : Lexeme} {rest : List Lexeme} (first : lexeme.Regular larger) (le : size ≤ larger)
    (others : ∀ other ∈ rest, other.Regular size) : ∀ other ∈ lexeme :: rest, other.Regular larger := by
  intro other member
  rcases List.mem_cons.mp member with rfl | inside
  · exact first
  · exact (others other inside).mono le

end Regular

theorem cutBracket_inside (depth : Nat) (s : Text) : (cutBracket depth s).1.length ≤ s.length := by
  induction s generalizing depth with
  | nil => simp [cutBracket]
  | cons c rest ih =>
      simp only [cutBracket]
      split
      · simp
      · have inner := ih (if c = '[' then depth + 1 else if c = ']' then depth - 1 else depth)
        simp only [List.length_cons]
        omega

theorem scan_regular {s : Text} {lexemes : List Lexeme} (scanned : scan s = .ok lexemes) :
    ∀ lexeme ∈ lexemes, lexeme.Regular s.length := by
  fun_induction scan s generalizing lexemes
  case case1 =>
      cases scanned
      nofun
  case case2 c rest blank ih => exact fun lexeme member => (ih scanned lexeme member).mono (Nat.le_succ _)
  case case3 c rest visible op pair ih =>
      obtain ⟨others, inner, rfl⟩ := map_cons_eq_ok.mp scanned
      have spelled : op.Spelled (c :: rest.take 1) := by
        cases rest with
        | nil => cases pair
        | cons next more => exact .double pair
      refine Regular.cons (.operator spelled) ?_ (ih inner)
      simp only [List.length_drop, List.length_cons]
      omega
  case case4 => cases scanned
  case case5 c rest visible noPair quote opens body after found ih =>
      obtain ⟨others, inner, rfl⟩ := map_cons_eq_ok.mp scanned
      have shorter := Text.cut?_length found
      refine Regular.cons (.quoted body) ?_ (ih inner)
      simp only [List.length_cons]
      omega
  case case6 => cases scanned
  case case7 rest inner filled visible noPair noQuote ih =>
      obtain ⟨others, later, rfl⟩ := map_cons_eq_ok.mp scanned
      have inside := cutBracket_inside 0 rest
      have after := cutBracket_length 0 rest
      exact Regular.cons (.bracket (Nat.lt_succ_of_le inside)) (Nat.le_succ_of_le after) (ih later)
  case case8 c rest visible noPair noQuote noBracket op single ih =>
      obtain ⟨others, inner, rfl⟩ := map_cons_eq_ok.mp scanned
      exact Regular.cons (.operator (.single single)) (Nat.le_succ _) (ih inner)
  case case9 => cases scanned
  case case10 c rest visible noPair noQuote noBracket noOperator name after follows inner filled ih =>
      obtain ⟨others, later, rfl⟩ := map_cons_eq_ok.mp scanned
      have whole := cutTerm_length ' ' c rest
      rw [follows, List.length_cons] at whole
      have inside : (cutBracket 0 after).1.length < (c :: rest).length := by
        have inner := cutBracket_inside 0 after
        simp only [List.length_cons]
        omega
      have remaining : (cutBracket 0 after).2.length ≤ (c :: rest).length := by
        have inner := cutBracket_length 0 after
        simp only [List.length_cons]
        omega
      refine Regular.cons (.term (Text.trim_ne_nil (by simpa using visible) _) ?_) remaining (ih later)
      rintro _ ⟨⟩
      exact inside
  case case11 c rest visible noPair noQuote noBracket noOperator name noIndex ih =>
      obtain ⟨others, later, rfl⟩ := map_cons_eq_ok.mp scanned
      have whole := cutTerm_length ' ' c rest
      exact Regular.cons (.term (Text.trim_ne_nil (by simpa using visible) _) nofun) (Nat.le_succ_of_le whole)
        (ih later)

theorem joinSigns_regular (first second : Operator) {size : Nat} : (joinSigns first second).Regular size := by
  unfold joinSigns
  split
  · exact .operator (.single rfl)
  · exact .operator (.single rfl)

theorem collapseSigns_regular {size : Nat} {lexemes : List Lexeme} (regular : ∀ lexeme ∈ lexemes, lexeme.Regular size) :
    ∀ lexeme ∈ collapseSigns lexemes, lexeme.Regular size := by
  induction lexemes with
  | nil => nofun
  | cons first rest ih =>
      have others := ih fun other member => regular other (by simp [member])
      have here := regular first (by simp)
      simp only [collapseSigns]
      split
      · rename_i op spelling second spelling' more collapsed
        rw [collapsed] at others
        split
        · exact Regular.cons (joinSigns_regular op second) (Nat.le_refl _) fun other member =>
            others other (by simp [member])
        · exact Regular.cons here (Nat.le_refl _) others
      · exact Regular.cons here (Nat.le_refl _) others

end Lexeme

namespace Token

def isMarked (token : Token) : Bool := token.negated || token.inverted

theorem eq_unmarked {token : Token} (unmarked : token.isMarked = false) : token = { lexeme := token.lexeme } := by
  obtain ⟨lexeme, negated, inverted⟩ := token
  simp only [isMarked, Bool.or_eq_false_iff] at unmarked
  rw [unmarked.1, unmarked.2]

def startsOperand (lexeme : Lexeme) : Bool := lexeme.isValue || lexeme.isOperator .openParen

/-- A marked token stands where an operand starts. -/
def Beside (left right : Token) : Prop := right.isMarked = true → atOperandStart (some left.lexeme) = true

structure Lexed (size : Nat) (tokens : List Token) : Prop where
  regular : ∀ token ∈ tokens, token.lexeme.Regular size
  marked : ∀ token ∈ tokens, token.isMarked = true → startsOperand token.lexeme = true
  beside : tokens.IsChain Beside

theorem Lexed.suffix {size : Nat} {used rest : List Token} (lexed : Lexed size (used ++ rest)) : Lexed size rest where
  regular token member := lexed.regular token (by simp [member])
  marked token member := lexed.marked token (by simp [member])
  beside := lexed.beside.right_of_append

/-- The tokens that `mark` returns, and whether the first one may be marked. -/
structure Marked (previous : Option Lexeme) (lexemes : List Lexeme) (tokens : List Token) : Prop where
  from_lexemes : ∀ token ∈ tokens, token.lexeme ∈ lexemes
  marked : ∀ token ∈ tokens, token.isMarked = true → startsOperand token.lexeme = true
  first : ∀ token ∈ tokens.head?, token.isMarked = true → atOperandStart previous = true
  beside : tokens.IsChain Beside

theorem Marked.skip {previous : Option Lexeme} {lexeme : Lexeme} {rest : List Lexeme} {tokens : List Token}
    (inner : Marked previous rest tokens) : Marked previous (lexeme :: rest) tokens where
  from_lexemes token member := by simp [inner.from_lexemes token member]
  marked := inner.marked
  first := inner.first
  beside := inner.beside

theorem Marked.cons {previous : Option Lexeme} (token : Token) {rest : List Lexeme} {tokens : List Token}
    (inner : Marked (some token.lexeme) rest tokens)
    (starts : token.isMarked = true → startsOperand token.lexeme = true)
    (start : token.isMarked = true → atOperandStart previous = true) :
    Marked previous (token.lexeme :: rest) (token :: tokens) where
  from_lexemes other member := by
    rcases List.mem_cons.mp member with rfl | inside
    · exact List.mem_cons_self
    · exact List.mem_cons_of_mem _ (inner.from_lexemes other inside)
  marked other member := by
    rcases List.mem_cons.mp member with rfl | inside
    · exact starts
    · exact inner.marked other inside
  first := by
    rintro _ ⟨⟩
    exact start
  beside := by
    cases tokens with
    | nil => exact .singleton token
    | cons second more => exact .cons_cons (inner.first second (by simp)) inner.beside

/-- Marks are collected only where an operand starts, and are put on what starts it. -/
theorem mark_marked {lexemes : List Lexeme} {previous : Option Lexeme} {marks : Option Marks} {tokens : List Token}
    (start : marks.isSome = true → atOperandStart previous = true) (marked : mark previous marks lexemes = .ok tokens) :
    Marked previous lexemes tokens := by
  induction lexemes generalizing previous marks tokens with
  | nil =>
      unfold mark at marked
      split at marked
      · cases marked
      · cases marked
        exact ⟨nofun, nofun, nofun, .nil⟩
  | cons lexeme rest ih =>
      unfold mark at marked
      split at marked
      · rename_i op isPrefix
        have here : atOperandStart previous = true := by
          obtain ⟨-, both⟩ := Option.filter_eq_some_iff.mp isPrefix
          exact (Bool.and_eq_true_iff.mp both).2
        exact (ih (fun _ => here) marked).skip
      · split at marked
        · cases marked
        · split at marked
          · obtain ⟨others, inner, rfl⟩ := map_cons_eq_ok.mp marked
            exact Marked.cons { lexeme := _ } (ih (by simp) inner) (by simp [isMarked]) (by simp [isMarked])
          · rename_i found
            split at marked
            · cases marked
            · rename_i startsHere
              rw [Bool.not_eq_true', Bool.not_eq_false] at startsHere
              split at marked
              · cases marked
              · obtain ⟨others, inner, rfl⟩ := map_cons_eq_ok.mp marked
                exact Marked.cons ⟨_, found.negated, found.inverted⟩ (ih (by simp) inner) (fun _ => startsHere)
                  (fun _ => start rfl)

theorem tokenize_lexed {text : Text} {tokens : List Token} (tokenized : tokenize text = .ok tokens) :
    Lexed text.length tokens := by
  obtain ⟨-, -, scanning⟩ := bind_eq_ok.mp tokenized
  obtain ⟨lexemes, scanned, marking⟩ := bind_eq_ok.mp scanning
  obtain ⟨found, marked, checking⟩ := bind_eq_ok.mp marking
  obtain ⟨-, -, same⟩ := bind_eq_ok.mp checking
  cases same
  have spec := mark_marked (by simp) marked
  have regular := Lexeme.collapseSigns_regular (Lexeme.scan_regular scanned)
  exact ⟨fun token member => regular _ (spec.from_lexemes token member), spec.marked, spec.beside⟩

end Token

end CommandScript
