import Formwork.Proofs.Number.Digits
import Formwork.Proofs.Template.Words

/-!
# The value and the text of a template

A template that is nothing but one expression has the value of the expression; any other has its own
output as its value. The value, shown, is the output of the template up to blanks at the ends, and
where there is no value there is no output (`native_agrees`), with three exceptions: a value that
cannot be shown, a decimal past the doubles, which is put out and is no value, and a source that
overruns. The value of the last is that of a longer expression, and the output is that of a shorter
one with a brace behind it.
-/

namespace Formwork.Proofs

open Formwork Formwork.Template Formwork.Text

/-- A source has a value that can be shown as what it puts out, if it has one. -/
structure Comparable (source : String) (context : Members) : Prop where
  clear : overruns source = false
  writable : ∀ v, expressionValue? source context = some v → v.isWritable = true
  finite : ∀ e, singleExpression? source = some e → infiniteSign? e = none

theorem render_of_writable {v : Value} (h : v.isWritable = true) : v.render = .ok v.output := by
  rw [Value.render, if_pos h]

theorem render_of_not_writable {v : Value} (h : v.isWritable = false) :
    v.render = .error .integerTooLong := by
  rw [Value.render, h, if_neg Bool.false_ne_true]

/-- The value and the text of a template agree when they can be compared. -/
theorem native_of_comparable {rules : List Template.Rule} {s : String} {context : Members}
    (h : opensMustache s = true → Comparable (Template.Rule.applyAll rules s) context) :
    (evaluateNative rules (.str s) context).render.map trimmed =
      (evaluateValue rules (.str s) context).map trimmed := by
  cases hopens : opensMustache s with
  | false =>
      rw [evaluateNative, evaluateValue, evaluateText, hopens, if_neg Bool.false_ne_true,
        if_neg Bool.false_ne_true]
      rfl
  | true =>
      obtain ⟨hclear, hwritable, hfinite⟩ := h hopens
      cases he : singleExpression? (Template.Rule.applyAll rules s) with
      | none =>
          rw [evaluateValue_rendered context hopens, evaluateNative, if_pos hopens, he]
          dsimp only
          cases render rules s context <;> rfl
      | some e =>
          rw [evaluateValue_single context hopens he hclear, evaluateNative_single context hopens he,
            outputExpression_eq (hfinite e he)]
          cases hvalue : evaluateExpression e context with
          | error fault => rfl
          | ok v =>
              have hv : expressionValue? (Template.Rule.applyAll rules s) context = some v := by
                rw [expressionValue?, he, Option.bind_some, hvalue]
                rfl
              have hshown := render_of_writable (hwritable v hv)
              rw [ok_bind, hshown]
              exact congrArg (Except.map trimmed) hshown

section Exceptions

variable {rules : List Template.Rule} {s : String} {context : Members}

/-- A single expression whose value cannot be shown has the value, and no text. -/
theorem native_of_not_writable (hopens : opensMustache s = true)
    (hclear : overruns (Template.Rule.applyAll rules s) = false) {v : Value}
    (hv : expressionValue? (Template.Rule.applyAll rules s) context = some v)
    (hlong : v.isWritable = false) :
    evaluateNative rules (.str s) context = v ∧ evaluateValue rules (.str s) context = .ok "" := by
  obtain ⟨e, he, hvalue⟩ := Option.bind_eq_some_iff.mp hv
  have hrendered := render_single context he hclear
  rw [outputExpression_of_value (toOption_eq_some_iff.mp hvalue),
    render_of_not_writable hlong] at hrendered
  refine ⟨?_, ?_⟩
  · rw [evaluateNative_single context hopens he, hvalue]
    rfl
  · rw [evaluateValue_rendered context hopens, map_eq_error.mp hrendered]
    rfl

/-- A decimal past the doubles has a text, and no value. -/
theorem native_of_infinite (hopens : opensMustache s = true)
    (hclear : overruns (Template.Rule.applyAll rules s) = false) {e : String} {negative : Bool}
    (he : singleExpression? (Template.Rule.applyAll rules s) = some e)
    (hinfinite : infiniteSign? e = some negative) :
    evaluateNative rules (.str s) context = .null
      ∧ (evaluateValue rules (.str s) context).map trimmed =
        .ok (Binary64.infinity negative).text := by
  obtain ⟨houtput, hnone⟩ := outputExpression_infinite context hinfinite
  refine ⟨?_, ?_⟩
  · rw [evaluateNative_single context hopens he, hnone]
    rfl
  · rw [evaluateValue_single context hopens he hclear, houtput]
    cases negative <;> decide

/-- A source that overruns has the value of the longer expression, and the output of the shorter one
with a brace behind it. -/
theorem native_of_overruns (hopens : opensMustache s = true)
    (hover : overruns (Template.Rule.applyAll rules s) = true) {body : List Char}
    (hsource : trim (Template.Rule.applyAll rules s).toList =
      '{' :: '{' :: (body ++ ['}', '}', '}'])) :
    evaluateNative rules (.str s) context =
        (expressionValue? (Template.Rule.applyAll rules s) context).getD .null
      ∧ (evaluateValue rules (.str s) context).map trimmed =
        .ok (((expressionOutput? (String.ofList ('{' :: '{' :: (body ++ ['}', '}']))) context).map
          fun out => trimmed (out ++ "\x7d")).getD "") := by
  obtain ⟨e, he⟩ := Option.isSome_iff_exists.mp (Bool.and_eq_true_iff.mp hover).1
  obtain ⟨longer, hlonger, hplain, rfl⟩ := singleExpression?_eq_some_iff.mp he
  have hbody : longer = body ++ ['}'] := by
    rw [hlonger] at hsource
    have htail := (List.cons.inj (List.cons.inj hsource).2).2
    refine List.append_cancel_right (htail.trans ?_)
    simp
  refine ⟨?_, ?_⟩
  · rw [evaluateNative_single context hopens he, expressionValue?, he]
    rfl
  · rw [evaluateValue_rendered context hopens, ← render_overrun context hsource (hbody ▸ hplain)]
    cases render rules s context <;> rfl

end Exceptions

/--
**The value and the text of a template agree, with three exceptions.**

Whatever the rules, the template and the context. A single expression whose value cannot be shown
has the value, and no text. One that is a decimal past the doubles has a text, and no value. And a
source that overruns is a single expression, and a mustache with one brace less and a brace behind
it: its value is that of the longer expression, and its text is the output of the shorter one with
the brace.
-/
theorem native_agrees (rules : List Template.Rule) (s : String) (context : Members) :
    ((opensMustache s = true → Comparable (Template.Rule.applyAll rules s) context) →
        (evaluateNative rules (.str s) context).render.map trimmed =
          (evaluateValue rules (.str s) context).map trimmed)
      ∧ (opensMustache s = true → overruns (Template.Rule.applyAll rules s) = false →
        (∀ v, expressionValue? (Template.Rule.applyAll rules s) context = some v →
            v.isWritable = false →
            evaluateNative rules (.str s) context = v ∧ v.render = .error .integerTooLong
              ∧ evaluateValue rules (.str s) context = .ok "")
          ∧ ∀ e negative, singleExpression? (Template.Rule.applyAll rules s) = some e →
            infiniteSign? e = some negative →
            evaluateNative rules (.str s) context = .null
              ∧ (evaluateValue rules (.str s) context).map trimmed =
                .ok (Binary64.infinity negative).text)
      ∧ ∀ body, opensMustache s = true → overruns (Template.Rule.applyAll rules s) = true →
        trim (Template.Rule.applyAll rules s).toList = '{' :: '{' :: (body ++ ['}', '}', '}']) →
        evaluateNative rules (.str s) context =
            (expressionValue? (Template.Rule.applyAll rules s) context).getD .null
          ∧ (evaluateValue rules (.str s) context).map trimmed =
            .ok (((expressionOutput? (String.ofList ('{' :: '{' :: (body ++ ['}', '}']))) context).map
              fun out => trimmed (out ++ "\x7d")).getD "") := by
  refine ⟨native_of_comparable, fun hopens hclear => ⟨fun v hv hlong => ?_,
    fun e negative he hinfinite => native_of_infinite hopens hclear he hinfinite⟩,
    fun body hopens hover hsource => native_of_overruns hopens hover hsource⟩
  obtain ⟨hvalue, htext⟩ := native_of_not_writable hopens hclear hv hlong
  exact ⟨hvalue, render_of_not_writable hlong, htext⟩

/-! ## A brace too many -/

/-- An expression that is a path has the value that the path leads to. -/
theorem evaluateExpression_path {word : String} {p : Path} (h : (Term.path p).Reads word)
    (hups : p.ups = 0) (context : Members) :
    evaluateExpression word context = .ok (p.eval context []).toValue := by
  have hread : Expr.read [] word = .ok (.reference (p.reference [])) := h.read.1 (Nat.le_of_eq hups)
  have hlevels : Levels [] [] 0 := ⟨List.nodup_nil, fun _ h => absurd h List.not_mem_nil, rfl⟩
  have hfollow : (⟨context, []⟩ : Env).follow (p.reference []) = p.eval context [] :=
    follow_reference hlevels p
  rw [evaluateExpression, hread, ← hfollow]
  rfl

theorem expressionValue?_path {source word : String} {p : Path}
    (he : singleExpression? source = some word) (h : (Term.path p).Reads word) (hups : p.ups = 0)
    (context : Members) : expressionValue? source context = some (p.eval context []).toValue := by
  rw [expressionValue?, he, Option.bind_some, evaluateExpression_path h hups]
  rfl

theorem expressionOutput?_path {source word : String} {p : Path}
    (he : singleExpression? source = some word) (h : (Term.path p).Reads word) (hups : p.ups = 0)
    (context : Members) :
    expressionOutput? source context = (p.eval context []).toValue.render.toOption := by
  rw [expressionOutput?, he, Option.bind_some,
    outputExpression_of_value (evaluateExpression_path h hups context)]
  cases (p.eval context []).toValue.render <;> rfl

/-- A key of the context as an expression. -/
def keyPath (name : String) : Path := ⟨0, .item, [.key name]⟩

theorem reads_on : (Term.path (keyPath "on")).Reads "on" := reads_path (by decide)

theorem reads_brace : (Term.path (keyPath "on\x7d")).Reads "on\x7d" :=
  reads_path (by decide)

/-- A switch with a brace too many. -/
def bracedSource : String := "\x7b\x7bon\x7d\x7d\x7d"

theorem bracedSource_overruns :
    opensMustache bracedSource = true
      ∧ singleExpression? (Template.Rule.applyAll Rule.builtIn bracedSource) = some "on\x7d"
      ∧ trim (Template.Rule.applyAll Rule.builtIn bracedSource).toList =
        '{' :: '{' :: (['o', 'n'] ++ ['}', '}', '}']) := by
  decide

/-- The switch without the brace. -/
theorem singleExpression?_on :
    singleExpression? (String.ofList ('{' :: '{' :: (['o', 'n'] ++ ['}', '}']))) = some "on" := by
  decide

/-- A switch, a key that ends in a brace, and a number with too many digits. -/
def switchContext : Members :=
  [("on", .bool true), ("on\x7d", .bool false), ("long", .int leastTooLong)]

/-- A decimal past the doubles. -/
def pastDoubles : List Char := '1' :: List.replicate 310 '0' ++ ['.', '0']

theorem pastDoubles_sole : Sole pastDoubles :=
  ⟨nofun, by decide +kernel, by decide, by decide, by decide⟩

theorem pastDoubles_infinite : infiniteSign? (String.ofList pastDoubles) = some false := by
  have hread : Expr.read [] (String.ofList pastDoubles) =
      .ok (.number (String.ofList pastDoubles)) :=
    read_number (by decide +kernel) nofun (by decide)
  have hspan : pastDoubles.span (· != '.') = ('1' :: List.replicate 310 '0', ['.', '0']) := by
    decide +kernel
  have hascii : (('1' :: List.replicate 310 '0' ++ ['0']).all fun c => c.toNat < 128) = true := by
    decide +kernel
  have hdouble : Binary64.ofDecimal false (Numeral.ofDigits
      (('1' :: List.replicate 310 '0' ++ ['0']).filterMap digitValue?)) (-1) = .infinity false := by
    decide +kernel
  have hvalue : unsignedNumber false pastDoubles = .ok (.float (.infinity false)) := by
    rw [unsignedNumber, hspan]
    dsimp only
    rw [hascii, if_pos rfl]
    exact congrArg (fun x => Except.ok (Value.float x)) hdouble
  refine infiniteSign?_eq_some_iff.mpr ⟨_, hread, ?_⟩
  rw [numberLiteral, String.toList_ofList]
  exact hvalue

theorem reads_long : (Term.path (keyPath "long")).Reads "long" := reads_path (by decide)

/-- The value of a switch can be shown. -/
theorem switch_comparable :
    Comparable (Template.Rule.applyAll Rule.builtIn " \x7b\x7bon\x7d\x7d\n") switchContext := by
  have hsingle : singleExpression? (Template.Rule.applyAll Rule.builtIn " \x7b\x7bon\x7d\x7d\n") =
      some "on" := by
    decide
  refine ⟨by decide, fun v hv => ?_, fun e he => ?_⟩
  · rw [expressionValue?_path hsingle reads_on rfl] at hv
    obtain rfl := Option.some.inj hv
    rfl
  · rw [hsingle] at he
    obtain rfl := Option.some.inj he
    decide

/-- A switch between blanks is a switch, and is shown as one. With a brace too many it is shown with
the brace, and the value is that of another key. A number with too many digits has no text, and a
decimal past the doubles no value. -/
theorem native_agrees_switch :
    evaluateNative Rule.builtIn (.str " \x7b\x7bon\x7d\x7d\n") switchContext = .bool true
      ∧ (evaluateValue Rule.builtIn (.str " \x7b\x7bon\x7d\x7d\n") switchContext).map trimmed =
        .ok "true"
      ∧ evaluateNative Rule.builtIn (.str bracedSource) switchContext = .bool false
      ∧ (evaluateValue Rule.builtIn (.str bracedSource) switchContext).map trimmed =
        .ok "true\x7d"
      ∧ evaluateNative Rule.builtIn (.str "\x7b\x7blong\x7d\x7d") switchContext =
        .int leastTooLong
      ∧ evaluateValue Rule.builtIn (.str "\x7b\x7blong\x7d\x7d") switchContext = .ok ""
      ∧ evaluateNative Rule.builtIn (.str (mustache pastDoubles)) switchContext = .null
      ∧ (evaluateValue Rule.builtIn (.str (mustache pastDoubles)) switchContext).map trimmed =
        .ok "inf" := by
  have hsingle : singleExpression? (Template.Rule.applyAll Rule.builtIn " \x7b\x7bon\x7d\x7d\n") =
      some "on" := by
    decide
  have hvalue : evaluateNative Rule.builtIn (.str " \x7b\x7bon\x7d\x7d\n") switchContext =
      .bool true := by
    rw [evaluateNative_single switchContext (by decide) hsingle,
      evaluateExpression_path reads_on rfl]
    rfl
  have hagree := (native_agrees Rule.builtIn " \x7b\x7bon\x7d\x7d\n" switchContext).1
    fun _ => switch_comparable
  obtain ⟨hopens, hlong, htrim⟩ := bracedSource_overruns
  obtain ⟨hlonger, hshorter⟩ := (native_agrees Rule.builtIn bracedSource switchContext).2.2
    ['o', 'n'] hopens (by decide) htrim
  have hnumber : singleExpression? (Template.Rule.applyAll Rule.builtIn "\x7b\x7blong\x7d\x7d") =
      some "long" := by
    decide
  have htooLong : (Value.int leastTooLong).isWritable = false :=
    Bool.eq_false_iff.mpr fun h => isWritable_iff.mp h tooLong_leastTooLong
  obtain ⟨hkept, -, hhidden⟩ :=
    ((native_agrees Rule.builtIn "\x7b\x7blong\x7d\x7d" switchContext).2.1 (by decide)
      (by decide)).1 _ (expressionValue?_path hnumber reads_long rfl _) htooLong
  obtain ⟨hnone, hinfinite⟩ :=
    ((native_agrees defaultRules (mustache pastDoubles) switchContext).2.1 (Sole.opens _)
      pastDoubles_sole.clear).2 _ false pastDoubles_sole.singleExpression?_eq pastDoubles_infinite
  rw [defaultRules_eq] at hnone hinfinite
  refine ⟨hvalue, ?_, ?_, ?_, hkept, hhidden, hnone, hinfinite⟩
  · rw [← hagree, hvalue]
    rfl
  · rw [hlonger, expressionValue?_path hlong reads_brace rfl]
    rfl
  · rw [hshorter, expressionOutput?_path singleExpression?_on reads_on rfl]
    decide

/-- Without such a key there is no value, and still a text. -/
theorem native_lost :
    evaluateNative defaultRules (.str bracedSource) [("on", .bool true)] = .null
      ∧ (evaluateValue defaultRules (.str bracedSource) [("on", .bool true)]).map trimmed =
        .ok "true\x7d"
      ∧ (evaluateNative defaultRules (.str bracedSource) [("on", .bool true)]).render.map trimmed ≠
        (evaluateValue defaultRules (.str bracedSource) [("on", .bool true)]).map trimmed := by
  rw [defaultRules_eq]
  obtain ⟨hopens, hlong, htrim⟩ := bracedSource_overruns
  have hvalue : evaluateNative Rule.builtIn (.str bracedSource) [("on", .bool true)] = .null := by
    rw [evaluateNative_single _ hopens hlong, evaluateExpression_path reads_brace rfl]
    rfl
  have hplain : Plain (['o', 'n'] ++ ['}']) := plain_iff.mpr (by decide)
  have htext : (evaluateValue Rule.builtIn (.str bracedSource) [("on", .bool true)]).map trimmed =
      .ok "true\x7d" := by
    have hrendered := render_overrun [("on", .bool true)] htrim hplain
    rw [expressionOutput?_path singleExpression?_on reads_on rfl] at hrendered
    rw [evaluateValue_rendered _ hopens]
    cases hout : render Rule.builtIn bracedSource [("on", .bool true)] with
    | error fault =>
        rw [hout] at hrendered
        cases hrendered
    | ok out =>
        rw [hout] at hrendered
        refine congrArg Except.ok ((Option.some.inj hrendered).trans ?_)
        decide
  refine ⟨hvalue, htext, ?_⟩
  rw [hvalue, htext]
  decide

end Formwork.Proofs
