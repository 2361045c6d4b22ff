import Formwork.Proofs.Template.Literal
import Mathlib.Data.List.DropRight
import Mathlib.Data.Option.Basic

/-!
# A source with one mustache

A source that is one mustache between blanks puts out what the expression in it does
(`Cut.render_eq`, `render_single`). That is the value of the expression, shown, if it has one and the
value can be shown; and a decimal past the doubles is put out without being a value
(`outputExpression`).

An expression is recognised by the two ends of the source, while a mustache ends at the nearest pair
of closing braces. The two find the same place unless three braces end the source (`overruns`): then
the last but two belongs to the expression and is not in the mustache (`render_overrun`).
-/

namespace Formwork.Proofs

open Formwork Formwork.Template Formwork.Text

/-! ## Blanks at the ends -/

section Blanks

variable {cs front behind : List Char}

/-- A text begins, once trimmed, with its first character that is no blank. -/
theorem head?_trim (cs : List Char) : (trim cs).head? = (cs.dropWhile isBlank).head? := by
  have hends : (cs.dropWhile isBlank).rdropWhile isBlank
      ++ (cs.dropWhile isBlank).rtakeWhile isBlank =
      cs.dropWhile isBlank := List.rdropWhile_append_rtakeWhile
  show ((cs.dropWhile isBlank).rdropWhile isBlank).head? = _
  cases hcut : (cs.dropWhile isBlank).rdropWhile isBlank with
  | cons c rest =>
      rw [hcut] at hends
      rw [← hends]
      rfl
  | nil =>
      -- nothing but blanks would be left, and the first that is left is none
      have hblank := List.rdropWhile_eq_nil_iff.mp hcut
      cases hdrop : cs.dropWhile isBlank with
      | nil => rfl
      | cons c rest =>
          rw [hdrop] at hblank
          have hlong : 0 < (cs.dropWhile isBlank).length := by rw [hdrop]; exact Nat.succ_pos _
          have hfirst := List.dropWhile_get_zero_not isBlank cs hlong
          simp only [hdrop, List.get_eq_getElem, List.getElem_cons_zero] at hfirst
          exact absurd (hblank c (List.mem_cons_self ..)) hfirst

/-- A pair of characters that are no blanks is still there once the text is trimmed. -/
theorem infix_trim {x : Char} (hx : isBlank x = false) (h : [x, x] <:+: cs) :
    [x, x] <:+: trim cs := by
  have hnot : ∀ {w : List Char}, Blanks w → x ∉ w := by
    intro w hw hmem
    rw [hw x hmem] at hx
    cases hx
  obtain ⟨front, behind, hfront, hbehind, heq⟩ := trim_surrounded cs
  rw [heq] at h
  have hinner := infix_of_append front (hnot hfront) h
  rcases infix_append_cases hinner with hin | hin | ⟨-, -, d, hd, -, hhead⟩
  · exact hin
  · exact absurd (hin.subset (List.mem_cons_self ..)) (hnot hbehind)
  · obtain rfl : d = x := by simpa using hd
    exact absurd (List.mem_of_mem_head? hhead) (hnot hbehind)

/-- Line ends are blanks, however they are written. -/
theorem blanks_normalizeLines (h : Blanks cs) : Blanks (normalizeLines cs) := by
  have hfeed : isBlank '\n' = true := by decide
  induction cs using normalizeLines.induct with
  | case1 rest ih =>
      rw [normalizeLines]
      exact List.forall_mem_cons.mpr ⟨hfeed, ih (h.of_infix ⟨['\r', '\n'], [], by simp⟩)⟩
  | case2 rest hno ih =>
      rw [normalizeLines.eq_2 _ hno]
      exact List.forall_mem_cons.mpr ⟨hfeed, ih (h.of_infix ⟨['\r'], [], by simp⟩)⟩
  | case3 c rest hno hno' ih =>
      rw [normalizeLines.eq_3 _ _ hno hno']
      obtain ⟨hc, hrest⟩ := List.forall_mem_cons.mp h
      exact List.forall_mem_cons.mpr ⟨hc, ih hrest⟩
  | case4 => exact h

/-- The line feed that is dropped at the end of a template is a blank. -/
theorem trim_append_dropFinalLine (front cs : List Char) :
    trim (front ++ dropFinalLine cs) = trim (front ++ cs) := by
  unfold dropFinalLine
  split
  · rename_i rest heq
    have hcs : cs = rest.reverse ++ ['\n'] := by
      rw [← List.reverse_reverse cs, heq, List.reverse_cons]
    have hfeed : Blanks ['\n'] := List.forall_mem_singleton.mpr (by decide)
    rw [hcs, ← List.append_assoc, trim_append_blanks hfeed]
  · rfl

/-- Blanks hold no mark, and neither do blanks behind one other character. -/
theorem needsProtection_of_blanks (h : Blanks cs.tail) :
    needsProtection (String.ofList cs) = false := by
  have hmarks : (marks.all fun m => m.toList.all fun c => !isBlank c) = true := by decide
  refine needsProtection_eq_false_iff.mpr fun m hm hin => ?_
  obtain ⟨x, y, hxy, -, -⟩ := marks_pair hm
  have hm' := List.all_eq_true.mp hmarks m hm
  rw [hxy, List.all_eq_true] at hm'
  rw [hxy, String.toList_ofList] at hin
  obtain ⟨before, after, heq⟩ := hin
  have hy : y ∈ cs.tail := by
    rw [← heq]
    cases before <;> simp
  have hblank : isBlank y = false := by simpa using hm' y (by simp)
  rw [h y hy] at hblank
  cases hblank

end Blanks

/-! ## A source with one mustache -/

/-- What is inside a mustache that is an expression: it is neither empty nor the tag of a block or a
comment, and holds no braces of another mustache. -/
structure Plain (body : List Char) : Prop where
  opening : ¬ ['{', '{'] <:+: trim body
  closing : ¬ ['}', '}'] <:+: trim body
  nonempty : trim body ≠ []
  head : ∀ c, (trim body).head? = some c → c ≠ '#' ∧ c ≠ '/' ∧ c ≠ '!'
  notElse : trim body ≠ "else".toList

/-- What is asked of the inside of a single expression is that it is plain. -/
theorem plain_iff {body : List Char} :
    Plain body ↔
      ((!occursIn "\x7b\x7b".toList (trim body)) = true
          ∧ (!occursIn "\x7d\x7d".toList (trim body)) = true)
        ∧ ((!(trim body).isEmpty) = true
          ∧ (!(trim body).head?.any fun c => c == '#' || c == '/' || c == '!') = true)
        ∧ (trim body != "else".toList) = true := by
  have hocc : ∀ needle hay : List Char, (!occursIn needle hay) = true ↔ ¬ needle <:+: hay := by
    intro needle hay
    rw [Bool.not_eq_true', ← Bool.not_eq_true, occursIn_iff]
  have hempty : (!(trim body).isEmpty) = true ↔ trim body ≠ [] := by
    rw [Bool.not_eq_true', List.isEmpty_eq_false_iff]
  have hhead : (!(trim body).head?.any fun c => c == '#' || c == '/' || c == '!') = true ↔
      ∀ c, (trim body).head? = some c → c ≠ '#' ∧ c ≠ '/' ∧ c ≠ '!' := by
    cases (trim body).head? <;> simp [and_assoc]
  rw [hocc, hocc, hempty, hhead, bne_iff_ne]
  constructor
  · rintro ⟨h1, h2, h3, h4, h5⟩
    exact ⟨⟨h1, h2⟩, ⟨h3, h4⟩, h5⟩
  · rintro ⟨⟨h1, h2⟩, ⟨h3, h4⟩, h5⟩
    exact ⟨h1, h2, h3, h4, h5⟩

/-- A source is a single expression when it is the braces of a mustache around a plain one. -/
theorem singleExpression?_eq_some_iff {source e : String} :
    singleExpression? source = some e ↔
      ∃ body, trim source.toList = '{' :: '{' :: (body ++ ['}', '}']) ∧ Plain body
        ∧ e = String.ofList (trim body) := by
  unfold singleExpression?
  simp only [Option.bind_eq_bind, Option.bind_eq_some_iff, Option.guard_eq_some', Bool.and_eq_true]
  have hinside : ∀ body : List Char,
      (body ++ ['}', '}']).take ((body ++ ['}', '}']).length - 2) = body := by
    intro body
    rw [List.length_append]
    exact List.take_left
  constructor
  · rintro ⟨rest, hopening, -, ⟨-, hclosing⟩, -, hpairs, -, hstart, -, helse, he⟩
    obtain ⟨body, rfl⟩ : ['}', '}'] <:+ rest := List.isSuffixOf_iff_suffix.mp hclosing
    rw [hinside] at hpairs hstart helse he
    refine ⟨body, ?_, plain_iff.mpr ⟨hpairs, hstart, helse⟩, (Option.some.inj he).symm⟩
    exact (List.isPrefixOf?_eq_some_iff_append_eq.mp hopening).symm
  · rintro ⟨body, hsource, hplain, rfl⟩
    obtain ⟨hpairs, hstart, helse⟩ := plain_iff.mp hplain
    refine ⟨body ++ ['}', '}'], List.isPrefixOf?_eq_some_iff_append_eq.mpr hsource.symm, (), ?_⟩
    rw [hinside]
    refine ⟨⟨?_, List.isSuffixOf_iff_suffix.mpr (List.suffix_append ..)⟩, (), hpairs, (), hstart,
      (), helse, rfl⟩
    rw [decide_eq_true_iff, List.length_append]
    exact Nat.le_add_left ..

/-- A source that is one mustache between a front and a text behind it, as it is cut. -/
structure Cut (source front body behind : List Char) : Prop where
  whole : source = front ++ '{' :: '{' :: (body ++ '}' :: '}' :: behind)
  blank : Blanks front
  closing : ¬ ['}', '}'] <:+: body
  ending : body.getLast? ≠ some '}'
  tail : Blanks behind.tail

theorem not_opening_of_blanks {cs : List Char} (h : Blanks cs.tail) : ¬ ['{', '{'] <:+: cs := by
  rintro ⟨before, after, rfl⟩
  have hbrace : isBlank '{' = true := h '{' (by cases before <;> simp)
  exact absurd hbrace (by decide)

namespace Cut

variable {source front body behind : List Char}

/-- The source is cut before and after the mustache. -/
theorem pieces_eq (h : Cut source front body behind) :
    pieces source = [.text front, .mustache body, .text behind] := by
  have hfront : front.getLast? ≠ some '{' := by
    intro hlast
    have hbrace := h.blank '{' (List.mem_of_mem_getLast? hlast)
    exact absurd hbrace (by decide)
  have hopening : breakAt? "\x7b\x7b".toList source =
      some (front, body ++ '}' :: '}' :: behind) := by
    rw [h.whole]
    exact breakAt?_pair (not_opening_of_blanks h.blank.tail) hfront _
  have hclosing : breakAt? "\x7d\x7d".toList (body ++ '}' :: '}' :: behind) = some (body, behind) :=
    breakAt?_pair h.closing h.ending _
  have hrest : ∀ fuel, pieces.go fuel behind = [.text behind] := by
    intro fuel
    have hnone : breakAt? "\x7b\x7b".toList behind = none := by
      rw [← Option.not_isSome_iff_eq_none]
      exact fun hin => not_opening_of_blanks h.tail (occursIn_iff.mp hin)
    cases fuel with
    | zero => rfl
    | succ fuel => rw [pieces.go, hnone]
  obtain ⟨fuel, hfuel⟩ : ∃ fuel, source.length = fuel + 1 := by
    refine Nat.exists_eq_add_one.mpr ?_
    rw [h.whole, List.length_append, List.length_cons]
    omega
  rw [pieces, hfuel, pieces.go, hopening]
  dsimp only
  rw [hclosing]
  dsimp only
  rw [hrest]

end Cut

/-- A mustache with no tag of a block or a comment inside is read as an output. -/
theorem step_output (r : Template.Reading) {body : List Char}
    (hhead : ∀ c, (trim body).head? = some c → c ≠ '#' ∧ c ≠ '/' ∧ c ≠ '!')
    (helse : trim body ≠ "else".toList) :
    r.step (.mustache body) =
      (Expr.read r.scopes (String.ofList (trim body))).map fun e => (some (.output e), r) := by
  rw [Template.Reading.step]
  generalize trim body = cs at hhead helse
  split
  · exact absurd rfl (hhead _ rfl).1
  · exact absurd rfl (hhead _ rfl).2.1
  · exact absurd rfl (hhead _ rfl).2.2
  · rw [beq_eq_false_iff_ne.mpr helse, if_neg Bool.false_ne_true]

/-- The form of an output between two texts is in the order of the three. -/
theorem ofTags_output (front : PlainText) (e : Expr) (behind : PlainText) :
    Node.ofTags [.text front.text, .output e, .text behind.text] =
      e.check.map fun _ =>
        shownNodes front.text (settledText front.text) ++
          (.output e :: shownNodes behind.text (settledEnd behind.text)) := by
  have hfront : Node.ofText (settledText front.text) = .ok [.text (settledText front.text)] :=
    ofText_plain front.lines
  have hend : Node.ofText (settledEnd behind.text) = .ok [.text (settledEnd behind.text)] := by
    rw [settledEnd_plain]
    exact ofText_plain _
  show nest [] [] (settle _) = _
  rw [settle_before rfl, nest_shown hfront, settle_cons rfl, nest, settle_end]
  cases e.check with
  | error fault => rfl
  | ok _ =>
      show nest [] _ _ = _
      rw [← List.append_nil (if behind.text.isEmpty = true then [] else _), nest_shown hend, nest]
      simp [Except.map]

/-- An output between two texts is read as such, if the expression can be read. -/
theorem Cut.read_eq {source front body behind : List Char} (h : Cut source front body behind)
    (hhead : ∀ c, (trim body).head? = some c → c ≠ '#' ∧ c ≠ '/' ∧ c ≠ '!')
    (helse : trim body ≠ "else".toList) :
    Tag.read (String.ofList source) =
      (Expr.read [] (String.ofList (trim body))).map fun e =>
        [.text (String.ofList front), .output e, .text (String.ofList behind)] := by
  have htext : ∀ cs : List Char, Template.Reading.start.step (.text cs) =
      .ok (some (.text (String.ofList cs)), Template.Reading.start) := fun _ => rfl
  have hstep := step_output Template.Reading.start hhead helse
  rw [Tag.read, String.toList_ofList, h.pieces_eq, tags_cons_eq _ (htext front)]
  show prepend _ _ = (Expr.read Template.Reading.start.scopes _).map _
  cases hread : Expr.read Template.Reading.start.scopes (String.ofList (trim body)) with
  | error e =>
      rw [hread] at hstep
      rw [Template.Reading.tags, hstep]
      rfl
  | ok e =>
      rw [hread] at hstep
      rw [tags_cons_eq _ hstep, tags_cons_eq _ (htext behind)]
      rfl

/-- What an expression in a mustache puts out. -/
def outputExpression (expression : String) (context : Members) : Except Failure String := do
  let e ← (Expr.read [] expression).mapError .malformed
  e.check.mapError .illFormed
  let o ← (e.output ⟨context, []⟩).mapError .call
  o.render.mapError .call

/-- The sign of an expression that is a decimal past the doubles: whether it is negative. -/
def infiniteSign? (expression : String) : Option Bool :=
  match Expr.read [] expression with
  | .ok (.number text) =>
    match numberLiteral text with
    | .ok (.float (.infinity negative)) => some negative
    | _ => none
  | _ => none

section Outputs

variable {expression : String} {context : Members}

theorem infiniteSign?_eq_some_iff {negative : Bool} :
    infiniteSign? expression = some negative ↔
      ∃ text, Expr.read [] expression = .ok (.number text)
        ∧ numberLiteral text = .ok (.float (.infinity negative)) := by
  constructor
  · intro h
    unfold infiniteSign? at h
    split at h
    · rename_i text hread
      split at h
      · rename_i hvalue
        cases h
        exact ⟨text, hread, hvalue⟩
      · cases h
    · cases h
  · rintro ⟨text, hread, hvalue⟩
    rw [infiniteSign?, hread]
    dsimp only
    rw [hvalue]

/-- What an expression without a value puts out is nothing, unless it is a decimal past the
doubles. -/
theorem outputExpression_eq (h : infiniteSign? expression = none) :
    outputExpression expression context =
      (evaluateExpression expression context >>= fun v => v.render.mapError .call) := by
  have houtput : ∀ e, Expr.read [] expression = .ok e → e.check = .ok () →
      e.output ⟨context, []⟩ = e.eval ⟨context, []⟩ := by
    intro e hread hcheck
    cases e with
    | number text =>
        rw [Expr.output, Expr.eval]
        cases hvalue : numberLiteral text with
        | error fault => rfl
        | ok v =>
            dsimp only
            unfold Operand.ofNumber
            split
            · rw [infiniteSign?_eq_some_iff.mpr ⟨text, hread, hvalue⟩] at h
              cases h
            · rfl
    | _ => rfl
  rw [outputExpression, evaluateExpression]
  cases hread : Expr.read [] expression with
  | error fault => rfl
  | ok e =>
      rw [mapError_ok, ok_bind, ok_bind]
      cases hcheck : e.check with
      | error fault => rfl
      | ok _ =>
          rw [mapError_ok, ok_bind, ok_bind, houtput e hread hcheck]
          cases e.eval ⟨context, []⟩ <;> rfl

/-- A decimal past the doubles is put out, and has no value. -/
theorem outputExpression_infinite (context : Members) {negative : Bool}
    (h : infiniteSign? expression = some negative) :
    outputExpression expression context = .ok (Binary64.infinity negative).text
      ∧ (evaluateExpression expression context).toOption = none := by
  obtain ⟨text, hread, hvalue⟩ := infiniteSign?_eq_some_iff.mp h
  have hcheck : (Expr.number text).check = .ok () := by
    rw [Expr.check, hvalue]
    rfl
  have hnone : (Expr.number text).eval ⟨context, []⟩ = .error .infiniteLiteral := by
    rw [Expr.eval, hvalue]
    rfl
  have houtput : (Expr.number text).output ⟨context, []⟩ =
      .ok (.value (.float (.infinity negative))) := by
    rw [Expr.output, hvalue]
    rfl
  constructor
  · rw [outputExpression, hread, mapError_ok, ok_bind, hcheck, mapError_ok, ok_bind, houtput]
    rfl
  · rw [evaluateExpression, hread, mapError_ok, ok_bind, hcheck, mapError_ok, ok_bind, hnone]
    rfl

/-- Then there is no value that the expression could have. -/
theorem outputExpression_of_value {v : Value} (h : evaluateExpression expression context = .ok v) :
    outputExpression expression context = v.render.mapError .call := by
  have hfinite : infiniteSign? expression = none := by
    refine Option.eq_none_iff_forall_ne_some.mpr fun negative hinfinite => ?_
    have hnone := (outputExpression_infinite context hinfinite).2
    rw [h] at hnone
    cases hnone
  rw [outputExpression_eq hfinite, h, ok_bind]

end Outputs

/-- An output between two texts, as they are shown, or the fault of the expression. -/
theorem Cut.render_eq {rules : List Template.Rule} {s : String} {front body behind : List Char}
    (h : Cut (Template.Rule.applyAll rules s).toList front body behind)
    (hhead : ∀ c, (trim body).head? = some c → c ≠ '#' ∧ c ≠ '/' ∧ c ≠ '!')
    (helse : trim body ≠ "else".toList) (context : Members) :
    render rules s context =
      (outputExpression (String.ofList (trim body)) context).map fun out =>
        settledText (String.ofList front) ++ out ++ settledEnd (String.ofList behind) := by
  have hread := h.read_eq hhead helse
  rw [String.ofList_toList] at hread
  let first : PlainText :=
    ⟨String.ofList front, needsProtection_of_blanks h.blank.tail⟩
  let last : PlainText := ⟨String.ofList behind, needsProtection_of_blanks h.tail⟩
  have hform : ∀ e, Node.ofTags
      [.text (String.ofList front), .output e, .text (String.ofList behind)] = _ :=
    fun e => ofTags_output first e last
  rw [render, compile, hread, outputExpression]
  cases Expr.read [] (String.ofList (trim body)) with
  | error e => rfl
  | ok e =>
      show ((Node.ofTags _).mapError _ >>= _) = ((e.check).mapError Failure.illFormed >>= _).map _
      rw [hform e]
      cases e.check with
      | error fault => rfl
      | ok _ =>
          show (renderAll ⟨context, []⟩ (_ ++ _)).mapError _ = ((e.output _).mapError _ >>= _).map _
          have hlast : renderAll ⟨context, []⟩
              (shownNodes (String.ofList behind) (settledEnd (String.ofList behind)) ++ []) =
                .ok (settledEnd (String.ofList behind) ++ "") :=
            renderAll_shownNodes _ settledEnd_of_empty []
          rw [List.append_nil, String.append_empty] at hlast
          rw [renderAll_shownNodes _ settledText_of_empty, renderAll, Node.render, hlast]
          cases e.output ⟨context, []⟩ with
          | error fault => rfl
          | ok o =>
              rw [ok_bind, mapError_ok, ok_bind]
              cases o.render with
              | error fault => rfl
              | ok out => exact congrArg Except.ok (String.append_assoc ..).symm

/-! ## Two uses of a template -/

/-- The value of a source that is a single expression. -/
def expressionValue? (source : String) (context : Members) : Option Value :=
  (singleExpression? source).bind fun e => (evaluateExpression e context).toOption

/-- What a source that is a single expression puts out. -/
def expressionOutput? (source : String) (context : Members) : Option String :=
  (singleExpression? source).bind fun e => (outputExpression e context).toOption

/-- The source is a single expression, with a brace before those that end it. -/
def overruns (source : String) : Bool :=
  (singleExpression? source).isSome && ['}', '}', '}'].isSuffixOf (trim source.toList)

/-- What is shown around an output is blank, but for one character behind it at most. -/
theorem trimmed_shown {front behind : List Char} (hfront : Blanks front)
    (hbehind : Blanks behind.tail)
    (t : String) :
    trimmed (settledText (String.ofList front) ++ t ++ settledEnd (String.ofList behind)) =
      trimmed (t ++ String.ofList (normalizeLines behind)) := by
  have hend : settledEnd (String.ofList behind) =
      String.ofList (dropFinalLine (normalizeLines behind)) := by
    rw [settledEnd, needsProtection_of_blanks hbehind, if_neg Bool.false_ne_true,
      String.toList_ofList]
  rw [hend, trimmed, trimmed, settledText]
  simp only [String.toList_append, String.toList_ofList]
  rw [trim_append_dropFinalLine, List.append_assoc,
    trim_blanks_append (blanks_normalizeLines hfront)]

/-- A source whose mustache ends where the source does. -/
theorem cut_of_single {source body : List Char}
    (hsource : trim source = '{' :: '{' :: (body ++ ['}', '}'])) (hplain : Plain body)
    (hending : body.getLast? ≠ some '}') :
    ∃ front behind, Blanks behind ∧ Cut source front body behind := by
  obtain ⟨front, behind, hfront, hbehind, heq⟩ := trim_surrounded source
  refine ⟨front, behind, hbehind, ?_, hfront, ?_, hending, hbehind.tail⟩
  · rw [heq, hsource]
    simp
  · exact fun hin => hplain.closing (infix_trim (by decide) hin)

/-- What is rendered of a single expression that does not overrun is its output. -/
theorem render_single {rules : List Template.Rule} {s e : String} (context : Members)
    (he : singleExpression? (Template.Rule.applyAll rules s) = some e)
    (hclear : overruns (Template.Rule.applyAll rules s) = false) :
    (render rules s context).map trimmed = (outputExpression e context).map trimmed := by
  obtain ⟨body, hsource, hplain, rfl⟩ := singleExpression?_eq_some_iff.mp he
  have hending : body.getLast? ≠ some '}' := by
    intro hlast
    obtain ⟨before, rfl⟩ := List.getLast?_eq_some_iff.mp hlast
    have hover : overruns (Template.Rule.applyAll rules s) = true := by
      rw [overruns, he, hsource]
      exact List.isSuffixOf_iff_suffix.mpr ⟨'{' :: '{' :: before, by simp⟩
    rw [hclear] at hover
    cases hover
  obtain ⟨front, behind, hbehind, hcut⟩ := cut_of_single hsource hplain hending
  rw [hcut.render_eq hplain.head hplain.notElse]
  cases outputExpression (String.ofList (trim body)) context with
  | error fault => rfl
  | ok out =>
      have htrim : trimmed out = trimmed (out ++ String.ofList (normalizeLines behind)) := by
        rw [trimmed, trimmed, String.toList_append, String.toList_ofList,
          trim_append_blanks (blanks_normalizeLines hbehind)]
      exact congrArg Except.ok ((trimmed_shown hcut.blank hcut.tail out).trans htrim.symm)

section Overrun

variable {source body : List Char}

/-- The inside of a mustache is cut one brace earlier than that of the expression. -/
theorem cut_of_overrun (hsource : trim source = '{' :: '{' :: (body ++ ['}', '}', '}']))
    (hplain : Plain (body ++ ['}'])) :
    ∃ front behind, Blanks behind ∧ Cut source front body ('}' :: behind) := by
  obtain ⟨front, behind, hfront, hbehind, heq⟩ := trim_surrounded source
  have hpair : ¬ ['}', '}'] <:+: body ++ ['}'] := fun hin =>
    hplain.closing (infix_trim (by decide) hin)
  refine ⟨front, behind, hbehind, ?_, hfront, ?_, ?_, hbehind⟩
  · rw [heq, hsource]
    simp
  · exact fun hin => hpair (hin.trans (List.prefix_append ..).isInfix)
  · intro hlast
    obtain ⟨before, rfl⟩ := List.getLast?_eq_some_iff.mp hlast
    exact hpair ⟨before, [], by simp⟩

/-- Without its last brace the inside is as plain as it was, if there is anything left that is not
the tag of an `else`. -/
theorem plain_of_overrun (hplain : Plain (body ++ ['}'])) (hne : trim body ≠ [])
    (helse : trim body ≠ "else".toList) : Plain body := by
  have hinfix : trim body <:+: body ++ ['}'] := by
    obtain ⟨front, behind, -, -, heq⟩ := trim_surrounded body
    exact ⟨front, behind ++ ['}'], by rw [← List.append_assoc, List.append_assoc front, ← heq]⟩
  have hhead : (trim body).head? = (trim (body ++ ['}'])).head? := by
    have hdrop : body.dropWhile isBlank ≠ [] := by
      intro hnil
      exact hne (List.head?_eq_none_iff.mp (by rw [head?_trim, hnil]; rfl))
    rw [head?_trim, head?_trim, List.dropWhile_append,
      if_neg (by rw [List.isEmpty_iff]; exact hdrop), List.head?_append_of_ne_nil _ hdrop]
  refine ⟨fun hin => ?_, fun hin => ?_, hne, fun c hc => hplain.head c (hhead ▸ hc), helse⟩
  · exact hplain.opening (infix_trim (by decide) (hin.trans hinfix))
  · exact hplain.closing (infix_trim (by decide) (hin.trans hinfix))

/-- A mustache has no blanks at its ends. -/
theorem trim_mustache :
    trim ('{' :: '{' :: (body ++ ['}', '}'])) = '{' :: '{' :: (body ++ ['}', '}']) := by
  have h := trim_of_ends (c := '{') (d := '}') (by decide) (by decide) ('{' :: (body ++ ['}']))
  simpa using h

/-- A mustache is a single expression when what is inside is plain. -/
theorem singleExpression?_mustache {e : String} :
    singleExpression? (String.ofList ('{' :: '{' :: (body ++ ['}', '}']))) = some e ↔
      Plain body ∧ e = String.ofList (trim body) := by
  rw [singleExpression?_eq_some_iff, String.toList_ofList, trim_mustache]
  constructor
  · rintro ⟨body', hbody, hplain, he⟩
    obtain rfl : body = body' :=
      List.append_cancel_right (List.cons.inj (List.cons.inj hbody).2).2
    exact ⟨hplain, he⟩
  · rintro ⟨hplain, he⟩
    exact ⟨body, rfl, hplain, he⟩

/-- What is rendered of a source that overruns is the output of the shorter mustache, and what is
left behind it. -/
theorem render_overrun {rules : List Template.Rule} {s : String} (context : Members)
    (hsource : trim (Template.Rule.applyAll rules s).toList =
      '{' :: '{' :: (body ++ ['}', '}', '}']))
    (hplain : Plain (body ++ ['}'])) :
    (render rules s context).toOption.map trimmed =
      (expressionOutput? (String.ofList ('{' :: '{' :: (body ++ ['}', '}']))) context).map
        fun out => trimmed (out ++ "\x7d") := by
  obtain ⟨front, behind, hbehind, hcut⟩ := cut_of_overrun hsource hplain
  have hnone : ¬ Plain body →
      expressionOutput? (String.ofList ('{' :: '{' :: (body ++ ['}', '}']))) context = none := by
    intro hnot
    have hsingle : singleExpression? (String.ofList ('{' :: '{' :: (body ++ ['}', '}']))) = none :=
      Option.eq_none_iff_forall_ne_some.mpr fun e he => hnot (singleExpression?_mustache.mp he).1
    rw [expressionOutput?, hsingle]
    rfl
  by_cases helse : trim body = "else".toList
  · -- the shorter mustache splits a block, and there is none
    have hread : Tag.read (Template.Rule.applyAll rules s) = .error .elseOutsideBlock := by
      have htext : Template.Reading.start.step (.text front) =
          .ok (some (.text (String.ofList front)), Template.Reading.start) := rfl
      have hstep : Template.Reading.start.step (.mustache body) = .error .elseOutsideBlock := by
        rw [Template.Reading.step, helse]
        rfl
      rw [Tag.read, hcut.pieces_eq, tags_cons_eq _ htext, Template.Reading.tags, hstep]
      rfl
    rw [hnone fun h => h.notElse helse, render, compile, hread]
    rfl
  · by_cases hne : trim body = []
    · have hhead : ∀ c, (trim body).head? = some c → c ≠ '#' ∧ c ≠ '/' ∧ c ≠ '!' := by
        rw [hne]
        exact fun c hc => absurd hc (Option.some_ne_none c).symm
      rw [hnone fun h => h.nonempty hne, hcut.render_eq hhead helse, hne]
      rfl
    · have hshort := plain_of_overrun hplain hne helse
      rw [expressionOutput?, singleExpression?_mustache.mpr ⟨hshort, rfl⟩, Option.bind_some,
        hcut.render_eq hshort.head helse]
      cases outputExpression (String.ofList (trim body)) context with
      | error fault => rfl
      | ok out =>
          have hlines : normalizeLines ('}' :: behind) = ['}'] ++ normalizeLines behind := rfl
          have htrim : trimmed (out ++ "\x7d") =
              trimmed (out ++ String.ofList (normalizeLines ('}' :: behind))) := by
            rw [hlines, trimmed, trimmed]
            simp only [String.toList_append, String.toList_ofList]
            rw [← List.append_assoc, trim_append_blanks (blanks_normalizeLines hbehind)]
            rfl
          exact congrArg some ((trimmed_shown hcut.blank hcut.tail out).trans htrim.symm)

end Overrun

section Uses

variable {rules : List Template.Rule} {s : String} (context : Members)

/-- A single expression is evaluated, and nothing is rendered. -/
theorem evaluateNative_single {e : String} (hopens : opensMustache s = true)
    (he : singleExpression? (Template.Rule.applyAll rules s) = some e) :
    evaluateNative rules (.str s) context =
      ((evaluateExpression e context).toOption).getD .null := by
  rw [evaluateNative, if_pos hopens, he]
  dsimp only
  cases evaluateExpression e context <;> rfl

/-- A text is what is rendered, if anything is. -/
theorem evaluateValue_rendered (hopens : opensMustache s = true) :
    evaluateValue rules (.str s) context = .ok ((render rules s context).toOption.getD "") := by
  rw [evaluateValue, evaluateText, if_pos hopens]
  cases render rules s context <;> rfl

/-- What is shown of a single expression that does not overrun is its output, if it has one. -/
theorem evaluateValue_single {e : String} (hopens : opensMustache s = true)
    (he : singleExpression? (Template.Rule.applyAll rules s) = some e)
    (hclear : overruns (Template.Rule.applyAll rules s) = false) :
    (evaluateValue rules (.str s) context).map trimmed =
      .ok (((outputExpression e context).map trimmed).toOption.getD "") := by
  rw [evaluateValue_rendered context hopens, ← render_single context he hclear]
  cases render rules s context <;> rfl

end Uses

end Formwork.Proofs
