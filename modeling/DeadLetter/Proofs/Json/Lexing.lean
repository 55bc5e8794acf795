import DeadLetter.Json.Token

/-!
# Reading tokens off the front of a text

`Lexer.lex s cs` : the tokens found from state `s` on. Between tokens a mark (`lex_mark`), a quoted string (`lex_quote`)
and a run of bare characters that ends there (`lex_bare`) are each read as one token, and reading goes on between
tokens.
-/

namespace DeadLetter.Json.Lexer

set_option autoImplicit false

variable {ts : List Token} {rest : List Char}

/-- The tokens of a text of which some characters are read. -/
def lex (s : State) (cs : List Char) : Option (List Token) := cs.foldlM step? s >>= finish?

theorem lex_cons (s : State) (c : Char) (cs : List Char) : lex s (c :: cs) = (step? s c).bind (lex · cs) := by
  rw [lex, List.foldlM_cons, bind_assoc]
  rfl

theorem tokens?_eq_lex (s : String) : tokens? s = lex ⟨[], .between⟩ s.toList := rfl

/-! ## Marks -/

theorem lex_mark {c : Char} {t : Token} (h : mark? c = some t) :
    lex ⟨ts, .between⟩ (c :: rest) = lex ⟨t :: ts, .between⟩ rest := by
  unfold mark? at h
  split at h <;> cases h <;> rfl

/-! ## Strings -/

/-- A character that stands for itself in a string. -/
theorem lex_plain {c : Char} (hquote : c ≠ '"') (hbackslash : c ≠ '\\') (hlow : ¬ c.toNat < 0x20) (run : List Char) :
    lex ⟨ts, .string run⟩ (c :: rest) = lex ⟨ts, .string (c :: run)⟩ rest := by
  rw [lex_cons, step?]
  dsimp only
  rw [if_neg hquote, if_neg hbackslash, if_neg hlow]
  rfl

theorem lex_letter (c : Char) (run : List Char) :
    lex ⟨ts, .string run⟩ ('\\' :: c :: rest) = lex ⟨ts, .string (c :: '\\' :: run)⟩ rest := rfl

theorem hexDigit_plain : ∀ n < 16, hexDigit n ≠ '"' ∧ hexDigit n ≠ '\\' ∧ ¬ (hexDigit n).toNat < 0x20 := by decide

theorem lex_escape (c : Char) (run : List Char) :
    lex ⟨ts, .string run⟩ (escape c ++ rest) = lex ⟨ts, .string ((escape c).reverse ++ run)⟩ rest := by
  unfold escape
  iterate 7
    split
    · exact lex_letter _ run
  split
  · next hlow =>
    obtain ⟨hq, hb, hl⟩ := hexDigit_plain (c.toNat / 16) (by omega)
    obtain ⟨hq', hb', hl'⟩ := hexDigit_plain (c.toNat % 16) (by omega)
    show lex _ ('\\' :: 'u' :: '0' :: '0' :: hexDigit (c.toNat / 16) :: hexDigit (c.toNat % 16) :: rest) = _
    rw [lex_letter, lex_plain (by decide) (by decide) (by decide), lex_plain (by decide) (by decide) (by decide),
      lex_plain hq hb hl, lex_plain hq' hb' hl']
    rfl
  · exact lex_plain ‹_› ‹_› ‹_› run

theorem lex_flatMap_escape (cs run : List Char) :
    lex ⟨ts, .string run⟩ (cs.flatMap escape ++ '"' :: rest) =
      lex ⟨.string (run.reverse ++ cs.flatMap escape) :: ts, .between⟩ rest := by
  induction cs generalizing run with
  | nil =>
    rw [List.flatMap_nil, List.append_nil]
    rfl
  | cons c cs ih =>
    rw [List.flatMap_cons, List.append_assoc, lex_escape, ih, List.reverse_append, List.reverse_reverse,
      List.append_assoc]

theorem lex_quote (s : String) :
    lex ⟨ts, .between⟩ (quote s ++ rest) = lex ⟨.string (s.toList.flatMap escape) :: ts, .between⟩ rest := by
  rw [quote, List.cons_append, List.append_assoc]
  exact lex_flatMap_escape s.toList []

/-! ## Bare tokens -/

/-- A bare token can end before a text: nothing follows, or a character that is not bare. -/
def Ends (rest : List Char) : Prop := ∀ c ∈ rest.head?, isBare c = false

theorem ends_nil : Ends [] := nofun

theorem ends_cons {c : Char} (h : isBare c = false) : Ends (c :: rest) := by
  rintro _ ⟨⟩
  exact h

theorem start?_of_isBare {c : Char} (h : isBare c = true) : start? ts c = some ⟨ts, .bare [c]⟩ := by
  have hblank : isBlank c = false := by
    simp only [isBlank, Bool.or_eq_false_iff, decide_eq_false_iff_not]
    refine ⟨⟨⟨?_, ?_⟩, ?_⟩, ?_⟩ <;> rintro rfl <;> exact absurd h (by decide)
  have hquote : c ≠ '"' := by
    rintro rfl
    exact absurd h (by decide)
  rw [start?, hblank, if_neg Bool.false_ne_true, if_neg hquote, if_pos h]

theorem lex_bareRun {run cs : List Char} {t : Token} (htoken : ofBare? (run.reverse ++ cs) = some t)
    (hbare : ∀ c ∈ cs, isBare c = true) (hends : Ends rest) :
    lex ⟨ts, .bare run⟩ (cs ++ rest) = lex ⟨t :: ts, .between⟩ rest := by
  induction cs generalizing run with
  | nil =>
    rw [List.append_nil] at htoken
    cases rest with
    | nil =>
      show (ofBare? run.reverse).map _ = _
      rw [htoken]
      rfl
    | cons c rest =>
      rw [List.nil_append, lex_cons, lex_cons, step?]
      dsimp only
      rw [hends c rfl, if_neg Bool.false_ne_true, htoken]
      rfl
  | cons c cs ih =>
    rw [List.cons_append, lex_cons, step?]
    dsimp only
    rw [if_pos (hbare c List.mem_cons_self)]
    refine ih ?_ fun d hd => hbare d (List.mem_cons_of_mem _ hd)
    rw [List.reverse_cons, List.append_assoc]
    exact htoken

/-- A run of bare characters is one token. -/
theorem lex_bare {cs : List Char} {t : Token} (htoken : ofBare? cs = some t) (hne : cs ≠ [])
    (hbare : ∀ c ∈ cs, isBare c = true) (hends : Ends rest) :
    lex ⟨ts, .between⟩ (cs ++ rest) = lex ⟨t :: ts, .between⟩ rest := by
  obtain ⟨c, cs, rfl⟩ := List.exists_cons_of_ne_nil hne
  rw [List.cons_append, lex_cons, step?]
  dsimp only
  rw [start?_of_isBare (hbare c List.mem_cons_self)]
  exact lex_bareRun htoken (fun d hd => hbare d (List.mem_cons_of_mem _ hd)) hends

end DeadLetter.Json.Lexer
