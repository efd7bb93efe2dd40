import Mathlib
import CommandScript.Proofs.Grammar.Soundness
import CommandScript.Proofs.Grammar.Completeness

/-! The parser accepts exactly its grammar. The text inside brackets is read by the parser itself; it is shorter than
the text around it, so the bound on the nesting of brackets does not change what is accepted. -/

namespace CommandScript.Expr

/-- Two ways to read the texts inside brackets, of which the second reads all that the first does. -/
def Extends (bracketed other : Text → Except Malformed Expr) (tokens : List Token) : Prop :=
  ∀ token ∈ tokens, ∀ inner, token.lexeme.inside? = some inner → ∀ e, bracketed inner = .ok e → other inner = .ok e

theorem Extends.subset {bracketed other : Text → Except Malformed Expr} {all some : List Token}
    (extension : Extends bracketed other all) (within : some ⊆ all) : Extends bracketed other some :=
  fun token member => extension token (within member)

theorem Extends.marked {bracketed other : Text → Except Malformed Expr} {first : Token} {negated inverted : Bool}
    {rest : List Token} (extension : Extends bracketed other (⟨first.lexeme, negated, inverted⟩ :: rest)) :
    Extends bracketed other (first :: rest) := by
  intro token member
  rcases List.mem_cons.mp member with rfl | later
  · exact extension ⟨token.lexeme, negated, inverted⟩ List.mem_cons_self
  · exact extension token (List.mem_cons_of_mem _ later)

section

variable {bracketed other : Text → Except Malformed Expr}

mutual

/-- What a tree is written with depends on the texts inside its brackets only. -/
theorem Yields.extend {inCall : Bool} {e : Expr} {tokens : List Token} (yields : Yields bracketed inCall e tokens)
    (extension : Extends bracketed other tokens) : Yields other inCall e tokens := by
  match yields with
  | .term text => exact .term text
  | .element name known => exact .element name (extension _ List.mem_cons_self _ rfl _ known)
  | .quoted text => exact .quoted text
  | .group opened closed inner => exact .group opened closed (inner.extend (extension.subset (by simp)))
  | .bracket known => exact .bracket (extension _ List.mem_cons_self _ rfl _ known)
  | .call name opened closed args =>
      refine .call name opened closed (args.extend (extension.subset ?_))
      intro token member
      simp [member]
  | .negate operand => exact .negate (operand.extend extension.marked)
  | .invert operand => exact .invert (operand.extend extension.marked)
  | .binary spelled left right =>
      refine .binary spelled (left.extend (extension.subset (by simp))) (right.extend (extension.subset ?_))
      intro token member
      simp [member]

theorem YieldsAll.extend {args : List Expr} {tokens : List Token} (yields : YieldsAll bracketed args tokens)
    (extension : Extends bracketed other tokens) : YieldsAll other args tokens := by
  match yields with
  | .none => exact .none
  | .one first => exact .one (first.extend extension)
  | .more separated first others =>
      refine .more separated (first.extend (extension.subset (by simp))) (others.extend (extension.subset ?_))
      intro token member
      simp [member]

end

end

/-- A text is read the same way under every bound that is larger than the text, and its tree is well-shaped. -/
theorem parseWithin_stable {text : Text} {bound : Nat} (large : text.length < bound) {e : Expr}
    (parsed : parseWithin bound text = .ok e) :
    WellShaped false e ∧ ∀ larger, text.length < larger → parseWithin larger text = .ok e := by
  induction size : text.length using Nat.strongRecOn generalizing text bound e with
  | ind size ih =>
      obtain ⟨depth, rfl⟩ : ∃ depth, bound = depth + 1 := ⟨bound - 1, by omega⟩
      obtain ⟨tokens, tokenized, read⟩ := bind_eq_ok.mp parsed
      have lexed := Token.tokenize_lexed tokenized
      have nested : ∀ token ∈ tokens, ∀ inner, token.lexeme.inside? = some inner → ∀ tree,
          parseWithin depth inner = .ok tree →
          WellShaped false tree ∧ ∀ larger, inner.length < larger → parseWithin larger inner = .ok tree := by
        intro token member inner found tree known
        have shorter := (lexed.regular token member).shorter found
        exact ih inner.length (by omega) (by omega) known rfl
      have readable : Token.Readable (parseWithin depth) text.length tokens :=
        ⟨lexed, fun token member inner tree found known => (nested token member inner found tree known).1⟩
      obtain ⟨shaped, yields⟩ := ofTokens_sound readable read
      refine ⟨shaped, fun larger above => ?_⟩
      obtain ⟨further, rfl⟩ : ∃ further, larger = further + 1 := ⟨larger - 1, by omega⟩
      refine bind_eq_ok.mpr ⟨tokens, tokenized, ofTokens_complete shaped (yields.extend ?_)⟩
      intro token member inner found tree known
      have shorter := (lexed.regular token member).shorter found
      exact (nested token member inner found tree known).2 further (by omega)

theorem parse_shaped {text : Text} {e : Expr} (parsed : parse text = .ok e) : WellShaped false e :=
  (parseWithin_stable (Nat.lt_succ_self _) parsed).1

/-- The tokens of a text, with the parser itself for the texts inside its brackets. -/
theorem tokenize_readable {text : Text} {tokens : List Token} (tokenized : Token.tokenize text = .ok tokens) :
    Token.Readable parse text.length tokens :=
  ⟨Token.tokenize_lexed tokenized, fun _ _ _ _ _ known => parse_shaped known⟩

theorem parse_eq_ok {text : Text} {e : Expr} :
    parse text = .ok e ↔
      ∃ tokens, Token.tokenize text = .ok tokens ∧ WellShaped false e ∧ Yields parse false e tokens := by
  constructor
  · intro parsed
    obtain ⟨tokens, tokenized, read⟩ := bind_eq_ok.mp parsed
    have lexed := Token.tokenize_lexed tokenized
    have nested : Extends (parseWithin text.length) parse tokens := by
      intro token member inner found tree known
      have shorter := (lexed.regular token member).shorter found
      exact (parseWithin_stable shorter known).2 _ (Nat.lt_succ_self _)
    have readable : Token.Readable (parseWithin text.length) text.length tokens :=
      ⟨lexed, fun token member inner tree found known => parse_shaped (nested token member inner found tree known)⟩
    obtain ⟨shaped, yields⟩ := ofTokens_sound readable read
    exact ⟨tokens, tokenized, shaped, yields.extend nested⟩
  · rintro ⟨tokens, tokenized, shaped, yields⟩
    have lexed := Token.tokenize_lexed tokenized
    refine bind_eq_ok.mpr ⟨tokens, tokenized, ofTokens_complete shaped (yields.extend ?_)⟩
    intro token member inner found tree known
    exact (parseWithin_stable (Nat.lt_succ_self _) known).2 _ ((lexed.regular token member).shorter found)

/-- The parser accepts exactly the tokens of well-shaped trees, and reads every tree back from what it is written with;
a text has the trees of its tokens. -/
theorem ofTokens_eq_ok_iff (source : Text) (e : Expr) :
    (∀ text tokens, Token.tokenize text = .ok tokens →
      (ofTokens source parse tokens = .ok e ↔ WellShaped false e ∧ Yields parse false e tokens)) ∧
    (∀ tokens, WellShaped false e → Yields parse false e tokens → ofTokens source parse tokens = .ok e) ∧
    (parse source = .ok e ↔ ∃ tokens, Token.tokenize source = .ok tokens ∧ ofTokens source parse tokens = .ok e) := by
  refine ⟨?_, ?_, ?_⟩
  · intro text tokens tokenized
    refine ⟨ofTokens_sound (tokenize_readable tokenized), ?_⟩
    rintro ⟨shaped, yields⟩
    exact ofTokens_complete shaped yields
  · intro tokens shaped yields
    exact ofTokens_complete shaped yields
  · rw [parse_eq_ok]
    constructor
    · rintro ⟨tokens, tokenized, shaped, yields⟩
      exact ⟨tokens, tokenized, ofTokens_complete shaped yields⟩
    · rintro ⟨tokens, tokenized, read⟩
      exact ⟨tokens, tokenized, ofTokens_sound (tokenize_readable tokenized) read⟩

def sampleText : Text := "-f('a', [b], c[1 + d]) * !(2 + x) < 3"

def sampleTree : Expr :=
  .binary (.comparison .less)
    (.binary (.arithmetic .mul)
      (.negate (.call "f" [.quoted "a" true, .group true (.term "b"),
        .element "c" (.binary (.arithmetic .add) (.term "1") (.term "d"))]))
      (.invert (.group false (.binary (.arithmetic .add) (.term "2") (.term "x")))))
    (.term "3")

theorem sampleText_accepted :
    ∃ tokens, Token.tokenize sampleText = .ok tokens ∧ ofTokens sampleText parse tokens = .ok sampleTree ∧
      WellShaped false sampleTree ∧ Yields parse false sampleTree tokens := by
  have parsed : parse sampleText = .ok sampleTree := by cbv
  obtain ⟨tokens, tokenized, read⟩ := (ofTokens_eq_ok_iff sampleText sampleTree).2.2.mp parsed
  have grammatical := ((ofTokens_eq_ok_iff sampleText sampleTree).1 sampleText tokens tokenized).mp read
  exact ⟨tokens, tokenized, read, grammatical⟩

end CommandScript.Expr
