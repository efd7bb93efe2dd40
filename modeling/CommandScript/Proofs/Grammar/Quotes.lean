import CommandScript.Proofs.Grammar.Accepted
import CommandScript.Proofs.Text.Spans

/-! Quotes in expressions. The tokenizer reads quotes by themselves and passes over those in brackets, whose
text is read later; all in all every quote of an expression that is read is closed. Brackets in quotes are told
from others by the count of marks only, not where an index is cut off: an index may be put into brackets if its
quotes hold none. -/

namespace CommandScript

theorem Operator.ofPair?_unquoted {c next : CodePoint} {op : Operator} (pair : ofPair? c next = some op) :
    Quote.of? c = none ∧ Quote.of? next = none := by
  unfold ofPair? at pair
  split at pair
  all_goals first | exact ⟨rfl, rfl⟩ | cases pair

namespace Lexeme

theorem cutBracket_whole (depth : Nat) (s : Text) :
    s = (cutBracket depth s).1 ++ (cutBracket depth s).2 ∨
      s = (cutBracket depth s).1 ++ .char ']' :: (cutBracket depth s).2 := by
  induction s generalizing depth with
  | nil => exact .inl rfl
  | cons c rest ih =>
      rw [cutBracket]
      split
      · rename_i closes
        exact .inr (by rw [closes.1, List.nil_append])
      · exact (ih (if c = '[' then depth + 1 else if c = ']' then depth - 1 else depth)).imp (congrArg (c :: ·))
          (congrArg (c :: ·))

theorem cutTerm_whole (older last : CodePoint) (s : Text) :
    (cutTerm older last s).1.Unquoted ∧ s = (cutTerm older last s).1 ++ (cutTerm older last s).2 := by
  have start : Text.Unquoted [] := fun c member => absurd member List.not_mem_nil
  induction s generalizing older last with
  | nil => exact ⟨start, rfl⟩
  | cons c rest ih =>
      rw [cutTerm]
      split
      · exact ⟨start, rfl⟩
      · rename_i inside
        obtain ⟨unquoted, whole⟩ := ih last c
        have noQuote : Quote.of? c = none := by
          simp only [Bool.and_eq_true, Bool.not_eq_true', not_and_or, Bool.not_eq_false] at inside
          rcases inside with sign | other
          · simp only [isExponentSign, Bool.and_eq_true, Bool.or_eq_true, decide_eq_true_eq] at sign
            rcases sign.1.1.1 with rfl | rfl <;> rfl
          · simp only [endsTerm, Quote.isOpening, Bool.or_eq_true, not_or, Bool.not_eq_true, Option.isSome_eq_false_iff,
              Option.isNone_iff_eq_none] at other
            exact other.1.2
        exact ⟨List.forall_mem_cons.mpr ⟨noQuote, unquoted⟩, congrArg (c :: ·) whole⟩

theorem blank_unquoted {c : CodePoint} (blank : Text.isBlank c = true) : Quote.of? c = none := by
  cases opens : Quote.of? c with
  | none => rfl
  | some quote =>
      obtain rfl := Quote.of?_eq_some opens
      revert blank
      cases quote <;> decide

/-- The quotes of a text are closed if those within its brackets are. -/
theorem scan_closed {s : Text} {lexemes : List Lexeme} (scanned : scan s = .ok lexemes)
    (inside : ∀ lexeme ∈ lexemes, ∀ inner, lexeme.inside? = some inner → inner.Closed) : s.Closed := by
  have bracketed {rest : Text} (inner : (cutBracket 0 rest).1.Closed) (after : (cutBracket 0 rest).2.Closed) :
      Text.Closed (.char '[' :: rest) := by
    refine (Text.closed_plain rfl).mpr ?_
    rcases cutBracket_whole 0 rest with whole | whole
    · rw [whole]
      exact inner.append after
    · rw [whole]
      exact inner.append ((Text.closed_plain rfl).mpr after)
  fun_induction scan s generalizing lexemes
  case case1 => exact .nil
  case case2 c rest blank ih => exact (Text.closed_plain (blank_unquoted blank)).mpr (ih scanned inside)
  case case3 c rest visible op pair ih =>
      obtain ⟨others, later, rfl⟩ := map_cons_eq_ok.mp scanned
      have closed := ih later fun other member => inside other (by simp [member])
      cases rest with
      | nil => cases pair
      | cons next more =>
          obtain ⟨first, second⟩ := Operator.ofPair?_unquoted pair
          exact (Text.closed_plain first).mpr ((Text.closed_plain second).mpr closed)
  case case4 => cases scanned
  case case5 c rest visible noPair quote opens body after found ih =>
      obtain ⟨others, later, rfl⟩ := map_cons_eq_ok.mp scanned
      obtain rfl := Quote.of?_eq_some opens
      rw [Text.cut?_append found]
      exact (Text.closed_quoted (Text.cut?_before found)).mpr
        (ih later fun other member => inside other (by simp [member]))
  case case6 => cases scanned
  case case7 rest inner filled visible noPair noQuote ih =>
      obtain ⟨others, later, rfl⟩ := map_cons_eq_ok.mp scanned
      exact bracketed (inside _ List.mem_cons_self _ rfl) (ih later fun other member => inside other (by simp [member]))
  case case8 c rest visible noPair noQuote noBracket op single ih =>
      obtain ⟨others, later, rfl⟩ := map_cons_eq_ok.mp scanned
      exact (Text.closed_plain noQuote).mpr (ih later fun other member => inside other (by simp [member]))
  case case9 => cases scanned
  case case10 c rest visible noPair noQuote noBracket noOperator name after follows inner filled ih =>
      obtain ⟨others, later, rfl⟩ := map_cons_eq_ok.mp scanned
      obtain ⟨unquoted, whole⟩ := cutTerm_whole ' ' c rest
      have index := bracketed (inside _ List.mem_cons_self _ rfl)
        (ih later fun other member => inside other (by simp [member]))
      rw [← follows] at index
      rw [whole]
      exact (Text.closed_plain noQuote).mpr (unquoted.closed.append index)
  case case11 c rest visible noPair noQuote noBracket noOperator name noIndex ih =>
      obtain ⟨others, later, rfl⟩ := map_cons_eq_ok.mp scanned
      obtain ⟨unquoted, whole⟩ := cutTerm_whole ' ' c rest
      rw [whole]
      exact (Text.closed_plain noQuote).mpr
        (unquoted.closed.append (ih later fun other member => inside other (by simp [member])))

theorem inside_operator {lexeme : Lexeme} {inner : Text} (found : lexeme.inside? = some inner) :
    lexeme.operator? = none := by
  cases lexeme with
  | operator op spelling => cases found
  | _ => rfl

theorem collapseSigns_values {lexemes : List Lexeme} {lexeme : Lexeme} (member : lexeme ∈ lexemes)
    (value : lexeme.operator? = none) : lexeme ∈ collapseSigns lexemes := by
  induction lexemes with
  | nil => cases member
  | cons first rest ih =>
      simp only [collapseSigns]
      split
      · rename_i op spelling second spelling' more collapsed
        have other : lexeme ≠ operator op spelling := by
          rintro rfl
          cases value
        have later := ih ((List.mem_cons.mp member).resolve_left other)
        rw [collapsed] at later
        have among : lexeme ∈ more := (List.mem_cons.mp later).resolve_left fun same => by
          subst same
          cases value
        split <;> simp [among]
      · rcases List.mem_cons.mp member with rfl | inside
        · exact List.mem_cons_self
        · exact List.mem_cons_of_mem _ (ih inside)

end Lexeme

namespace Token

theorem mark_values {lexemes : List Lexeme} {previous : Option Lexeme} {marks : Option Marks} {tokens : List Token}
    (marked : mark previous marks lexemes = .ok tokens) {lexeme : Lexeme} (member : lexeme ∈ lexemes)
    (value : lexeme.operator? = none) : ∃ token ∈ tokens, token.lexeme = lexeme := by
  induction lexemes generalizing previous marks tokens with
  | nil => cases member
  | cons first rest ih =>
      have later {previous : Option Lexeme} {marks : Option Marks} {tokens : List Token}
          (inner : mark previous marks rest = .ok tokens) (other : lexeme ≠ first) : ∃ token ∈ tokens,
            token.lexeme = lexeme :=
        ih inner ((List.mem_cons.mp member).resolve_left other)
      have among {token : Token} {tokens : List Token} (here : token.lexeme = first)
          (inner : lexeme ≠ first → ∃ token ∈ tokens, token.lexeme = lexeme) : ∃ other ∈ token :: tokens,
            other.lexeme = lexeme := by
        by_cases same : lexeme = first
        · exact ⟨token, List.mem_cons_self, here.trans same.symm⟩
        · obtain ⟨other, inside, found⟩ := inner same
          exact ⟨other, List.mem_cons_of_mem _ inside, found⟩
      unfold mark at marked
      split at marked
      · rename_i op isPrefix
        refine later marked fun same => ?_
        have known := (Option.filter_eq_some_iff.mp isPrefix).1
        rw [← same, value] at known
        cases known
      · split at marked
        · cases marked
        · split at marked
          · obtain ⟨others, inner, rfl⟩ := map_cons_eq_ok.mp marked
            exact among rfl (later inner)
          · split at marked
            · cases marked
            · split at marked
              · cases marked
              · obtain ⟨others, inner, rfl⟩ := map_cons_eq_ok.mp marked
                exact among rfl (later inner)

end Token

namespace Expr

/-- The texts inside the brackets of tokens are read. -/
def Nests (bracketed : Text → Except Malformed Expr) (tokens : List Token) : Prop :=
  ∀ token ∈ tokens, ∀ inner, token.lexeme.inside? = some inner → ∃ tree, bracketed inner = .ok tree

section

variable {bracketed : Text → Except Malformed Expr}

theorem Nests.append {before after : List Token} (first : Nests bracketed before) (second : Nests bracketed after) :
    Nests bracketed (before ++ after) :=
  fun token member => (List.mem_append.mp member).elim (first token) (second token)

theorem Nests.cons {token : Token} {rest : List Token}
    (first : ∀ inner, token.lexeme.inside? = some inner → ∃ tree, bracketed inner = .ok tree)
    (others : Nests bracketed rest) :
    Nests bracketed (token :: rest) := List.forall_mem_cons.mpr ⟨first, others⟩

theorem Nests.nil : Nests bracketed [] := nofun

theorem Nests.operator {op : Operator} {spelling : Text} {rest : List Token} (others : Nests bracketed rest) :
    Nests bracketed ({ lexeme := .operator op spelling } :: rest) := .cons nofun others

mutual

theorem Yields.nests {inCall : Bool} {e : Expr} {tokens : List Token} (yields : Yields bracketed inCall e tokens) :
    Nests bracketed tokens := by
  match yields with
  | .term text => exact .cons nofun .nil
  | .element name known => exact .cons (by rintro _ ⟨⟩; exact ⟨_, known⟩) .nil
  | .quoted text => exact .cons nofun .nil
  | .group opened closed inner => exact inner.nests.operator.append (.operator .nil)
  | .bracket known => exact .cons (by rintro _ ⟨⟩; exact ⟨_, known⟩) .nil
  | .call name opened closed args => exact Nests.append (.cons nofun args.nests.operator) (.operator .nil)
  | .negate operand =>
      obtain ⟨first, others⟩ := List.forall_mem_cons.mp operand.nests
      exact .cons first others
  | .invert operand =>
      obtain ⟨first, others⟩ := List.forall_mem_cons.mp operand.nests
      exact .cons first others
  | .binary spelled left right => exact left.nests.append right.nests.operator

theorem YieldsAll.nests {args : List Expr} {tokens : List Token} (yields : YieldsAll bracketed args tokens) :
    Nests bracketed tokens := by
  match yields with
  | .none => exact .nil
  | .one first => exact first.nests
  | .more separated first others => exact first.nests.append others.nests.operator

end

end

theorem parse_closed {text : Text} {e : Expr} (parsed : parse text = .ok e) : text.Closed := by
  induction size : text.length using Nat.strongRecOn generalizing text e with
  | ind size ih =>
      obtain ⟨tokens, tokenized, -, yields⟩ := parse_eq_ok.mp parsed
      have lexed := Token.tokenize_lexed tokenized
      obtain ⟨-, -, scanning⟩ := bind_eq_ok.mp tokenized
      obtain ⟨lexemes, scanned, marking⟩ := bind_eq_ok.mp scanning
      obtain ⟨found, marked, checking⟩ := bind_eq_ok.mp marking
      obtain ⟨-, -, same⟩ := bind_eq_ok.mp checking
      cases same
      refine Lexeme.scan_closed scanned fun lexeme member inner inside => ?_
      have value := Lexeme.inside_operator inside
      obtain ⟨token, among, rfl⟩ := Token.mark_values marked (Lexeme.collapseSigns_values member value) value
      obtain ⟨tree, known⟩ := yields.nests token among inner inside
      have shorter := (lexed.regular token among).shorter inside
      exact ih inner.length (by omega) known rfl

end Expr

end CommandScript
