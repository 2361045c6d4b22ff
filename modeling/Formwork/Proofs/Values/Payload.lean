import Formwork.Proofs.Json.RoundTrip
import Formwork.Proofs.Template.Single
import Formwork.Values.Payload

/-!
# Values in a payload

A form can submit a value as it is: the helper for JSON writes it into the output of the template,
and the payload is what is read of that output (`payload_json`). Nothing on the way takes the text
of a value for something else: it is never blank, so that the values of the form would be submitted
in its place, and the renderer adds nothing around it. Only a value with a number that has too many
digits is not written, and the helper writes something empty for it.
-/

namespace Formwork.Proofs

open Formwork Formwork.Template Formwork.Text

/-- What is inside the template that writes the value of a field as JSON. -/
def jsonField : List Char := "json x".toList

theorem jsonField_sole : Sole jsonField :=
  ⟨by decide, by decide, by decide, by decide, by decide⟩

/-- What stands for a value that cannot be written: an empty list for a list, and else an empty
object. -/
def standIn : Value → Value
  | .list _ => .list []
  | _ => .object []

/-- The text that the helper for JSON makes of a value. -/
def jsonText (v : Value) : String := Json.text (if v.isWritable then v else standIn v)

/-- The expression has this text as its value. -/
theorem evaluateExpression_jsonField {context : Members} {v : Value}
    (h : Ordered.get? context "x" = some v) :
    evaluateExpression (String.ofList jsonField) context = .ok (.str (jsonText v)) := by
  have hread : Expr.read [] (String.ofList jsonField) =
      .ok (.call .json [.reference ⟨.context, [.key "x"]⟩]) := rfl
  have hfollow : (⟨context, []⟩ : Env).follow ⟨.context, [.key "x"]⟩ = .value v := by
    rw [follow_key (by decide), h]
    rfl
  have hjson : (Operand.value v).json .undefined = jsonText v := by
    have htext : (Operand.value v).json .undefined =
        (Json.write? v).getD (Json.text (standIn v)) := by
      cases v <;> rfl
    rw [htext, Json.write?, jsonText]
    split <;> rfl
  have heval : (Expr.call .json [.reference ⟨.context, [.key "x"]⟩]).eval ⟨context, []⟩ =
      .ok (.value (.str (jsonText v))) := by
    show Helper.call .json [(⟨context, []⟩ : Env).follow _] = _
    rw [hfollow, ← hjson]
    rfl
  exact evaluateExpression_of_read hread rfl heval

theorem isBlankText_text {v : Value} (h : v.Discrete) : isBlankText (Json.text v) = false := by
  obtain ⟨c, cs, hchars, hblank, -⟩ := chars_start h
  rw [isBlankText, Json.text, String.toList_ofList, hchars, List.all_cons, hblank]
  rfl

/-- What is read of the text that is written for a value is submitted. -/
theorem payload_of_text {v w : Value} (htext : jsonText v = Json.text w) (hdiscrete : w.Discrete)
    (hshort : w.Describable) :
    payload (some "\x7b\x7bjson x\x7d\x7d") [("x", v)] = .ok w := by
  have hsource : "\x7b\x7bjson x\x7d\x7d" = mustache jsonField := by decide
  have hblank : isBlankText (mustache jsonField) = false := by decide
  have hcontext : Ordered.get? (Ordered.insertAll [("formData", .object [("x", v)])] [("x", v)]) "x"
      = some v := rfl
  have hshown := jsonField_sole.evaluateText_eq (evaluateExpression_jsonField hcontext)
  rw [htext] at hshown
  -- neither the template nor its output is blank, so the values of the form are not taken
  have hout : evaluateText defaultRules (mustache jsonField)
      (Ordered.insertAll [("formData", .object [("x", v)])] [("x", v)]) = Json.text w := hshown
  rw [hsource, payload, hblank, if_neg Bool.false_ne_true]
  dsimp only
  rw [hout, isBlankText_text hdiscrete, if_neg Bool.false_ne_true, read_text hdiscrete hshort]

theorem payload_of_describable {v : Value} (hdiscrete : v.Discrete) (hshort : v.Describable) :
    payload (some "\x7b\x7bjson x\x7d\x7d") [("x", v)] = .ok v := by
  refine payload_of_text ?_ hdiscrete hshort
  rw [jsonText, if_pos (Value.isWritable_iff_describable v |>.mpr hshort)]

/-- A value that cannot be written is submitted as what stands for it. -/
theorem payload_of_not_describable {v : Value} (hlong : ¬ v.Describable) :
    payload (some "\x7b\x7bjson x\x7d\x7d") [("x", v)] = .ok (standIn v) := by
  have hdiscrete : (standIn v).Discrete := by
    unfold standIn
    split
    · exact .list (List.forall_mem_nil _)
    · exact .object List.nodup_nil (List.forall_mem_nil _)
  have hshort : (standIn v).Describable := by
    unfold standIn
    split
    · exact .list (List.forall_mem_nil _)
    · exact .object (List.forall_mem_nil _)
  refine payload_of_text ?_ hdiscrete hshort
  rw [jsonText, if_neg fun h => hlong (Value.isWritable_iff_describable v |>.mp h)]

/--
**Every value without doubles is its own payload, if all its integers can be written.**

Objects have distinct keys. A value in which some integer has more digits than an integer numeral
may have is not written, and an empty list or object is submitted in its place.
-/
theorem payload_json (v : Value) (h : v.Discrete) :
    ((∀ n : Int, Value.Within (.int n) v → n.natAbs < 10 ^ Numeral.maxDigits) →
        payload (some "\x7b\x7bjson x\x7d\x7d") [("x", v)] = .ok v)
      ∧ ((∃ n : Int, Value.Within (.int n) v ∧ 10 ^ Numeral.maxDigits ≤ n.natAbs) →
        payload (some "\x7b\x7bjson x\x7d\x7d") [("x", v)] = .ok (standIn v)) := by
  refine ⟨fun hshort => payload_of_describable h fun n hn => Nat.not_le.mpr (hshort n hn), ?_⟩
  rintro ⟨n, hn, hlong⟩
  exact payload_of_not_describable fun hshort => hshort n hn hlong

/-- A text, a number and an empty list in objects, with keys that have to be escaped: quotes, line
ends, control characters and characters beyond the basic plane. -/
def nestedValue : Value :=
  .object [("", .list [.null, .str "", .str "null", .int (-120), .list []]),
    ("\"\\/\n😀", .object [("\u007f", .bool true)])]

theorem nestedValue_discrete : nestedValue.Discrete := by
  refine .object (by decide) (List.forall_mem_cons.mpr ⟨.list ?_, List.forall_mem_singleton.mpr ?_⟩)
  · simp only [List.forall_mem_cons, List.not_mem_nil, false_imp_iff, implies_true, and_true]
    exact ⟨.null, .str _, .str _, .int _, .list (List.forall_mem_nil _)⟩
  · exact .object (by decide) (List.forall_mem_singleton.mpr (.bool true))

theorem nestedValue_describable : nestedValue.Describable := by
  have hnumber : ¬ TooLongToShow (-120) :=
    Nat.not_le.mpr (Nat.lt_of_lt_of_le (by decide : 120 < 10 ^ 3)
      (Nat.pow_le_pow_right (by decide) (by decide)))
  refine .object (List.forall_mem_cons.mpr ⟨.list ?_, List.forall_mem_singleton.mpr ?_⟩)
  · simp only [List.forall_mem_cons, List.not_mem_nil, false_imp_iff, implies_true, and_true]
    exact ⟨.null, .str _, .str _, .int hnumber, .list (List.forall_mem_nil _)⟩
  · exact .object (List.forall_mem_singleton.mpr (.bool true))

/-- A list with a number that has too many digits. -/
def longList : Value := .list [.bool true, .int leastTooLong]

theorem longList_discrete : longList.Discrete :=
  .list (List.forall_mem_cons.mpr ⟨.bool true, List.forall_mem_singleton.mpr (.int _)⟩)

theorem payload_json_nested :
    nestedValue.Discrete
      ∧ payload (some "\x7b\x7bjson x\x7d\x7d") [("x", nestedValue)] = .ok nestedValue
      ∧ longList.Discrete
      ∧ payload (some "\x7b\x7bjson x\x7d\x7d") [("x", longList)] = .ok (.list []) := by
  obtain ⟨hpayload, -⟩ := payload_json nestedValue nestedValue_discrete
  obtain ⟨-, hlost⟩ := payload_json longList longList_discrete
  have hwithin : Value.Within (.int leastTooLong) longList :=
    .item (List.mem_cons_of_mem _ (List.mem_singleton_self _)) .self
  exact ⟨nestedValue_discrete, hpayload fun n hn => Nat.not_le.mp (nestedValue_describable n hn),
    longList_discrete, hlost ⟨_, hwithin, tooLong_leastTooLong⟩⟩

/-- A number with too many digits is submitted as an empty object. -/
theorem payload_number_lost :
    (Value.int leastTooLong).Discrete
      ∧ payload (some "\x7b\x7bjson x\x7d\x7d") [("x", .int leastTooLong)] = .ok (.object [])
      ∧ payload (some "\x7b\x7bjson x\x7d\x7d") [("x", .int leastTooLong)] ≠
        .ok (.int leastTooLong) := by
  have hlost : payload (some "\x7b\x7bjson x\x7d\x7d") [("x", .int leastTooLong)] =
      .ok (.object []) :=
    payload_of_not_describable fun hshort => hshort leastTooLong .self tooLong_leastTooLong
  refine ⟨.int _, hlost, ?_⟩
  rw [hlost]
  nofun

end Formwork.Proofs
