import Formwork.Proofs.Template.Single

/-!
# Words of an expression

A word is a run of characters that are no blanks, quotes or parentheses, and a token of its own
unless it has the form of a number (`scan_word`). One that is spelled without points and without the
other signs of paths (`PlainWord`) is a single segment of a path: outside all blocks it is the key
of that name in the context, and behind a point it is a step from there.
-/

namespace Formwork.Proofs

open Formwork Formwork.Template Formwork.Text

/-- The characters that mean something in an expression, in a path or at a mustache. -/
def signs : List Char := ['"', '\'', '(', ')', '.', '=', '/', '~', '{', '}']

/-- A run of characters without blanks, none of which is a sign. -/
structure PlainWord (cs : List Char) : Prop where
  nonempty : cs ≠ []
  noBlank : ∀ c ∈ cs, isBlank c = false
  noSign : ∀ c ∈ cs, c ∉ signs

/-! ## Tokens -/

section Tokens

variable {source : String} {fuel : Nat} {run rest : List Char}

/-- The token at the front is read, and then what follows it. -/
theorem scan_token {c : Char} {cs : List Char} {token : Token} (hblank : isBlank c = false)
    (h : Token.next? (c :: cs) = some (token, rest)) :
    Token.scan source (fuel + 1) (c :: cs) = (Token.scan source fuel rest).map (token :: ·) := by
  have hdrop : (c :: cs).dropWhile isBlank = c :: cs :=
    List.dropWhile_cons_of_neg (by rw [hblank]; decide)
  conv_lhs => unfold Token.scan
  rw [hdrop]
  dsimp only
  rw [h]

theorem scan_nil : Token.scan source fuel [] = .ok [] := by
  cases fuel <;> rfl

theorem scan_blank {c : Char} (hblank : isBlank c = true) :
    Token.scan source fuel (c :: rest) = Token.scan source fuel rest := by
  have hdrop : (c :: rest).dropWhile isBlank = rest.dropWhile isBlank :=
    List.dropWhile_cons_of_pos hblank
  unfold Token.scan
  rw [hdrop]

theorem isWordPart_eq_true_iff {c : Char} :
    Token.isWordPart c = true ↔ isBlank c = false ∧ c ∉ ['(', ')', '"', '\''] := by
  simp [Token.isWordPart, Token.isQuote, and_assoc]

/-- The token of a run of the characters of words, with this behind it. -/
def runToken (run after : List Char) : Token :=
  if Token.isNumber run && !after.head?.any Token.isQuote then .number (String.ofList run)
  else .word (String.ofList run)

/-- A run of the characters of words is a token. -/
theorem next?_run (hne : run ≠ []) (hrun : ∀ c ∈ run, Token.isWordPart c = true)
    (hend : ∀ c, rest.head? = some c → Token.isWordPart c = false) :
    Token.next? (run ++ rest) = some (runToken run rest, rest) := by
  obtain ⟨c, run, rfl⟩ := List.exists_cons_of_ne_nil hne
  have hc := hrun c (List.mem_cons_self ..)
  simp only [Token.isWordPart, Bool.not_eq_true', Bool.or_eq_false_iff, beq_eq_false_iff_ne] at hc
  obtain ⟨⟨⟨-, hopening⟩, hclosing⟩, hquote⟩ := hc
  have hspan := span_append hrun hend
  rw [List.cons_append] at hspan ⊢
  rw [Token.next?.eq_4 _ _ hopening hclosing, if_neg (by rw [hquote]; decide), hspan]
  rfl

theorem scan_run (hrun : ∀ c ∈ run, Token.isWordPart c = true) (hne : run ≠ [])
    (hend : ∀ c, rest.head? = some c → Token.isWordPart c = false) :
    Token.scan source (fuel + 1) (run ++ rest) =
      (Token.scan source fuel rest).map (runToken run rest :: ·) := by
  obtain ⟨c, cs, rfl⟩ := List.exists_cons_of_ne_nil hne
  have hblank := (isWordPart_eq_true_iff.mp (hrun c (List.mem_cons_self ..))).1
  exact scan_token hblank (next?_run hne hrun hend)

/-- It is a word, unless it is a number. -/
theorem runToken_word (hnumber : Token.isNumber run = false) :
    runToken run rest = .word (String.ofList run) := by
  rw [runToken, hnumber, Bool.false_and, if_neg Bool.false_ne_true]

theorem scan_word (hrun : ∀ c ∈ run, Token.isWordPart c = true) (hne : run ≠ [])
    (hend : ∀ c, rest.head? = some c → Token.isWordPart c = false)
    (hnumber : Token.isNumber run = false) :
    Token.scan source (fuel + 1) (run ++ rest) =
      (Token.scan source fuel rest).map (.word (String.ofList run) :: ·) := by
  rw [scan_run hrun hne hend, runToken_word hnumber]

/-- A word before a space is read, and then what follows the space. -/
theorem scan_word_space (hrun : ∀ c ∈ run, Token.isWordPart c = true) (hne : run ≠ [])
    (hnumber : Token.isNumber run = false) :
    Token.scan source (fuel + 1) (run ++ ' ' :: rest) =
      (Token.scan source fuel rest).map (.word (String.ofList run) :: ·) := by
  have hspace : isBlank ' ' = true := by decide
  have hend : ∀ c, (' ' :: rest).head? = some c → Token.isWordPart c = false := by
    rintro c ⟨⟩
    decide
  rw [scan_word hrun hne hend hnumber, scan_blank hspace]

/-- A word at the end is the last token. -/
theorem scan_last_word (hrun : ∀ c ∈ run, Token.isWordPart c = true) (hne : run ≠ [])
    (hnumber : Token.isNumber run = false) :
    Token.scan source (fuel + 1) run = .ok [.word (String.ofList run)] := by
  have hscan : Token.scan source (fuel + 1) (run ++ []) = _ := scan_word hrun hne nofun hnumber
  rw [List.append_nil, scan_nil] at hscan
  exact hscan

/-- A run alone is the only token. -/
theorem tokenize_run (hrun : ∀ c ∈ run, Token.isWordPart c = true) (hne : run ≠ []) :
    Token.tokenize (String.ofList run) = .ok [runToken run []] := by
  have htrim : trim run = run :=
    trim_eq_self fun c hc => (isWordPart_eq_true_iff.mp (hrun c hc)).1
  obtain ⟨n, hn⟩ : ∃ n, run.length = n + 1 :=
    Nat.exists_eq_add_one.mpr (List.length_pos_iff.mpr hne)
  have hscan : Token.scan (String.ofList run) (n + 1) (run ++ []) = _ := scan_run hrun hne nofun
  rw [List.append_nil, scan_nil] at hscan
  rw [Token.tokenize, String.toList_ofList, htrim, hn, hscan]
  rfl

/-- A word alone is read as that word. -/
theorem tokenize_word (hrun : ∀ c ∈ run, Token.isWordPart c = true) (hne : run ≠ [])
    (hnumber : Token.isNumber run = false) :
    Token.tokenize (String.ofList run) = .ok [.word (String.ofList run)] := by
  rw [tokenize_run hrun hne, runToken_word hnumber]

/-- A number alone is read as that number. -/
theorem read_number {scopes : List Nat} (hrun : ∀ c ∈ run, Token.isWordPart c = true)
    (hne : run ≠ []) (hnumber : Token.isNumber run = true) :
    Expr.read scopes (String.ofList run) = .ok (.number (String.ofList run)) := by
  have htoken : runToken run [] = .number (String.ofList run) := by
    rw [runToken, hnumber]
    rfl
  rw [Expr.read, tokenize_run hrun hne, htoken, ok_bind]
  rfl

theorem isNumber_of_head {c : Char} (hdigit : isDecimal c = false) (hminus : c ≠ '-')
    (cs : List Char) : Token.isNumber (c :: cs) = false := by
  have hspan : (c :: cs).span isDecimal = ([], c :: cs) := by
    rw [List.span_eq_takeWhile_dropWhile]
    simp [hdigit]
  unfold Token.isNumber
  split
  · rename_i heq
    exact absurd (List.cons.inj heq).1 hminus
  · rw [Token.isUnsignedNumber, hspan]

/-- A word that names no helper is the term that it stands for. -/
theorem read_word {scopes : List Nat} (hrun : ∀ c ∈ run, Token.isWordPart c = true) (hne : run ≠ [])
    (hnumber : Token.isNumber run = false) (hname : Helper.ofName? (String.ofList run) = none) :
    Expr.read scopes (String.ofList run) = Expr.ofWord scopes (String.ofList run) := by
  rw [Expr.read, tokenize_word hrun hne hnumber, ok_bind]
  simp only [Expr.ofTokens, hname, Expr.alone]
  cases Expr.ofWord scopes (String.ofList run) <;> rfl

/-- What holds neither its quote nor a backslash is closed at the next quote. -/
theorem literalBody?_append {quote : Char} {body : List Char} (hquote : quote ∉ body)
    (hslash : '\\' ∉ body) (hne : quote ≠ '\\') (rest : List Char) :
    Token.literalBody? quote (body ++ quote :: rest) = some (body ++ [quote], rest) := by
  induction body with
  | nil =>
      rw [List.nil_append, Token.literalBody?.eq_3 _ _ _ fun _ _ heq _ => hne heq,
        if_pos (beq_self_eq_true _)]
      rfl
  | cons c body ih =>
      rw [List.mem_cons, not_or] at hquote hslash
      have hc : (c == quote) = false := beq_eq_false_iff_ne.mpr (Ne.symm hquote.1)
      have hslash' : (c == '\\') = false := beq_eq_false_iff_ne.mpr (Ne.symm hslash.1)
      rw [List.cons_append, Token.literalBody?.eq_3 _ _ _ fun _ _ heq _ => hslash.1 heq.symm, hc,
        hslash', if_neg Bool.false_ne_true, if_neg Bool.false_ne_true, ih hquote.2 hslash.2]
      rfl

theorem quote_cases {quote : Char} (hq : Token.isQuote quote = true) :
    quote = '"' ∨ quote = '\'' := by
  simpa [Token.isQuote] using hq

theorem quote_ne_backslash {quote : Char} (hq : Token.isQuote quote = true) : quote ≠ '\\' := by
  rcases quote_cases hq with rfl | rfl <;> decide

/-- A literal that is closed is a token. -/
theorem next?_literal {quote : Char} {cs body : List Char} (hq : Token.isQuote quote = true)
    (hbody : Token.literalBody? quote cs = some (body, rest)) :
    Token.next? (quote :: cs) = some (.literal (String.ofList (quote :: body)), rest) := by
  have hne : ∀ c ∈ ['(', ')'], quote ≠ c := by rcases quote_cases hq with rfl | rfl <;> decide
  rw [Token.next?.eq_4 _ _ (hne '(' (by decide)) (hne ')' (by decide)), if_pos hq, hbody]
  rfl

/-- A literal ends at the next quote. -/
theorem scan_literal {quote : Char} {body : List Char} (hq : Token.isQuote quote = true)
    (hquote : quote ∉ body) (hslash : '\\' ∉ body) :
    Token.scan source (fuel + 1) (quote :: (body ++ quote :: rest)) =
      (Token.scan source fuel rest).map
        (.literal (String.ofList (quote :: (body ++ [quote]))) :: ·) := by
  have hbody := literalBody?_append hquote hslash (quote_ne_backslash hq) rest
  refine scan_token ?_ (next?_literal hq hbody)
  rcases quote_cases hq with rfl | rfl <;> decide

/-- Where nothing is found, nothing is replaced. -/
theorem replaceAll_of_not_infix {needle replacement hay : List Char} (hne : needle ≠ [])
    (h : ¬ needle <:+: hay) : replaceAll needle replacement hay = hay := by
  have hnone : breakAt? needle hay = none := by
    rw [← Option.not_isSome_iff_eq_none]
    exact fun hin => h (occursIn_iff.mp hin)
  have hgo : ∀ fuel, splitBy.go needle fuel hay = [hay] := by
    intro fuel
    cases fuel with
    | zero => rfl
    | succ fuel => rw [splitBy.go, hnone]
  have hempty : needle.isEmpty = false := List.isEmpty_eq_false_iff.mpr hne
  rw [replaceAll, splitBy, hempty, if_neg Bool.false_ne_true, hgo, List.intercalate_singleton]

/-- A literal without backslashes stands for what is between its quotes. -/
theorem unquote_literal {quote : Char} {body : List Char} (hslash : '\\' ∉ body) :
    Token.unquote (String.ofList (quote :: (body ++ [quote]))) = String.ofList body := by
  have hnone : ∀ c, ¬ ['\\', c] <:+: body := fun c hin => hslash (hin.subset (by simp))
  rw [Token.unquote, String.toList_ofList]
  dsimp only
  rw [List.dropLast_concat, replaceAll_of_not_infix (by simp) (hnone quote),
    replaceAll_of_not_infix (by simp) (hnone '\\')]

end Tokens

/-! ## Paths -/

section Paths

variable {cs : List Char}

/-- A word that is no constant is a path. -/
theorem ofWord_of_not_mem {scopes : List Nat} {word : String}
    (h : word ∉ ["true", "false", "null", "undefined"]) :
    Expr.ofWord scopes word = (Reference.ofPath scopes word).map .reference := by
  simp only [List.mem_cons, List.not_mem_nil, or_false, not_or] at h
  simp [Expr.ofWord, h]

theorem parentSteps_of_head (h : cs.head? ≠ some '.') : parentSteps cs = (0, cs) := by
  unfold parentSteps
  split
  · exact absurd rfl h
  · rfl

theorem dropCurrent_of_head (h : cs.head? ≠ some '.') : dropCurrent cs = cs := by
  unfold dropCurrent
  split
  · exact absurd rfl h
  · rfl

/-- A path without signs in front, outside all blocks, goes from the context by its segments. -/
theorem ofPath_root (hequals : '=' ∉ cs) (hpoint : cs.head? ≠ some '.') (hat : cs.head? ≠ some '@')
    {first : List Char} {more : List (List Char)}
    (hsegments : (cs.splitOn '.').filter (!·.isEmpty) = first :: more)
    (hthis : first ≠ "this".toList) :
    Reference.ofPath [] (String.ofList cs) =
      ((first :: more).mapM fun s => Step.ofSegment (String.ofList s)).map fun steps =>
        ⟨.context, steps⟩ := by
  have hscope : scopeAbove? [] 0 = some none := rfl
  have hhash : cs.contains '=' = false := by simpa using hequals
  have hbinding : (cs.head? == some '@') = false := beq_eq_false_iff_ne.mpr hat
  have hitem : (first == "this".toList) = false := beq_eq_false_iff_ne.mpr hthis
  unfold Reference.ofPath
  rw [String.toList_ofList, hhash, if_neg Bool.false_ne_true, parentSteps_of_head hpoint]
  dsimp only
  rw [hscope, dropCurrent_of_head hpoint]
  dsimp only
  rw [hbinding, if_neg Bool.false_ne_true, hsegments]
  dsimp only
  rw [hitem, if_neg Bool.false_ne_true, bind_ok_eq_map]
  rfl

theorem PlainWord.not_mem (h : PlainWord cs) {c : Char} (hc : c ∈ signs) : c ∉ cs :=
  fun hmem => h.noSign c hmem hc

theorem PlainWord.avoids (h : PlainWord cs) {few : List Char} (hsigns : ∀ c ∈ few, c ∈ signs)
    {c : Char} (hc : c ∈ cs) : c ∉ few :=
  fun hmem => h.noSign c hc (hsigns c hmem)

theorem PlainWord.isWordPart (h : PlainWord cs) {c : Char} (hc : c ∈ cs) :
    Token.isWordPart c = true :=
  isWordPart_eq_true_iff.mpr ⟨h.noBlank c hc, h.avoids (by decide) hc⟩

/-- A plain word is one segment. -/
theorem PlainWord.splitOn (h : PlainWord cs) : (cs.splitOn '.').filter (!·.isEmpty) = [cs] := by
  rw [List.splitOn_eq_singleton (h.not_mem (by decide))]
  simp [h.nonempty]

end Paths

end Formwork.Proofs
