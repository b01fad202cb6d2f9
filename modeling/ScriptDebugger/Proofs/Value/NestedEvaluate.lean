import ScriptDebugger.Debugger.View
import ScriptDebugger.Proofs.Value.Nested
import ScriptDebugger.Value.Builtin
import ScriptDebugger.Value.Evaluate
import ScriptDebugger.Value.Member

/-!
# Evaluation inside one function more

Texts and numbers of values do not tell whether a script runs inside one
function more. So operators, members and built-ins give the same results in the
store of the nested script, references to functions apart.
-/

namespace ScriptDebugger

namespace Store

variable (n : Nesting) (s : Store)

lemma elementText_nested {display display' : Value → String}
    (h : ∀ v, display' v.nested = display v) (v : Value) :
    elementText display' v.nested = elementText display v := by
  cases v <;> first | rfl | exact h _

lemma closure_text_nested (ref : Ref) :
    ((s.nested n).closure (ref + 1)).text = (s.closure ref).text := by
  obtain ⟨span, h⟩ := s.closure_nested n ref
  rw [h]

lemma closure_name_nested (ref : Ref) :
    ((s.nested n).closure (ref + 1)).name = (s.closure ref).name := by
  obtain ⟨span, h⟩ := s.closure_nested n ref
  rw [h]

lemma closure_params_nested (ref : Ref) :
    ((s.nested n).closure (ref + 1)).params = (s.closure ref).params := by
  obtain ⟨span, h⟩ := s.closure_nested n ref
  rw [h]

lemma displayWithin_nested (depth : Nat) (v : Value) :
    (s.nested n).displayWithin depth v.nested = s.displayWithin depth v := by
  induction depth generalizing v with
  | zero =>
    cases v <;> simp [Value.nested, displayWithin, closure_text_nested, BoundBuiltin.nested]
  | succ depth ih =>
    cases v with
    | array ref =>
      simp only [Value.nested, displayWithin, array_nested, Array.toList_map, List.map_map]
      congr 1
      exact List.map_congr_left fun v _ => elementText_nested ih v
    | _ => simp [Value.nested, displayWithin, closure_text_nested, BoundBuiltin.nested]

@[simp] lemma display_nested (v : Value) : (s.nested n).display v.nested = s.display v := by
  rw [display, size_arrays_nested, displayWithin_nested, display]

@[simp] lemma render_nested (v : Value) : (s.nested n).render v.nested = s.render v := by
  have text := s.display_nested n v
  cases v <;> simp only [Value.nested, render] at text ⊢ <;> rw [text]

@[simp] lemma join_nested (items : Array Value) (separator : String) :
    (s.nested n).join (items.map Value.nested) separator = s.join items separator := by
  simp only [join, Array.toList_map, List.map_map]
  congr 1
  exact List.map_congr_left fun v _ => elementText_nested (s.display_nested n) v

@[simp] lemma toNumber_nested (v : Value) : (s.nested n).toNumber v.nested = s.toNumber v := by
  have text := s.display_nested n v
  cases v <;> simp only [Value.nested, toNumber] at text ⊢
  rw [text]

lemma inspectWithin_nested (levels : Nat) (v : Value) :
    (s.nested n).inspectWithin levels v.nested = s.inspectWithin levels v := by
  have plain (v : Value) : (s.nested n).display v.nested = s.display v := s.display_nested n v
  induction levels generalizing v with
  | zero =>
    have text := plain v
    cases v <;>
      simp_all [Value.nested, inspectWithin, closure_name_nested, BoundBuiltin.nested]
  | succ levels ih =>
    have text := plain v
    cases v with
    | array ref =>
      simp only [Value.nested, inspectWithin, array_nested, Array.toList_map, List.map_map]
      congr 1
      exact List.map_congr_left fun v _ => ih v
    | object ref =>
      simp only [Value.nested, inspectWithin, record_nested, Record.nested, List.map_map]
      congr 1
      exact List.map_congr_left fun p _ => congrArg (p.1 ++ ": " ++ ·) (ih p.2)
    | _ => simp_all [Value.nested, inspectWithin, closure_name_nested, BoundBuiltin.nested]

@[simp] lemma inspect_nested (v : Value) : (s.nested n).inspect v.nested = s.inspect v := by
  have text := s.inspectWithin_nested n 3 v
  cases v <;> first | rfl | exact text

@[simp] lemma looseEq_nested (a b : Value) :
    (s.nested n).looseEq a.nested b.nested = s.looseEq a b := by
  have number (v : Value) : (s.nested n).toNumber v.nested = s.toNumber v := s.toNumber_nested n v
  have text (v : Value) : (s.nested n).display v.nested = s.display v := s.display_nested n v
  have same := Value.strictEq_nested a b
  have ha := number a
  have hb := number b
  have ta := text a
  have tb := text b
  cases a <;> cases b <;> simp_all [Value.nested, looseEq]

lemma add_nested (a b : Value) : (s.nested n).add a.nested b.nested = (s.add a b).nested := by
  have joins (v : Value) : joinsText v.nested = joinsText v := by cases v <;> rfl
  simp only [add, joins, display_nested, toNumber_nested]
  split <;> rfl

lemma compare_nested (ofText : String → String → Bool) (ofNumber : Float → Float → Bool)
    (a b : Value) :
    (s.nested n).compare ofText ofNumber a.nested b.nested = s.compare ofText ofNumber a b := by
  have ha := s.toNumber_nested n a
  have hb := s.toNumber_nested n b
  cases a with
  | string x =>
    cases b with
    | string y => rfl
    | _ => exact congrArg (ofNumber _) hb
  | _ => exact congrArg₂ ofNumber ha hb

@[simp] lemma evalBinary_nested (op : BinaryOp) (a b : Value) :
    (s.nested n).evalBinary op a.nested b.nested = (s.evalBinary op a b).nested := by
  cases op with
  | add => exact s.add_nested n a b
  | _ =>
    simp only [evalBinary, compare_nested, looseEq_nested, Value.strictEq_nested, toNumber_nested]
    rfl

@[simp] lemma evalUnary_nested (op : UnaryOp) (v : Value) :
    (s.nested n).evalUnary op v.nested = (s.evalUnary op v).nested := by
  cases op <;>
    simp only [evalUnary, Value.isTruthy_nested, Value.typeOf_nested, toNumber_nested] <;> rfl

@[simp] lemma evalUpdate_nested (op : UpdateOp) (v : Value) :
    (s.nested n).evalUpdate op v.nested = s.evalUpdate op v := by
  simp only [evalUpdate, toNumber_nested]

end Store

def Member.nested : Member → Member
  | plain v => plain v.nested
  | method builtin => method builtin

lemma argument_nested (args : List Value) (i : Nat) :
    argument (args.map Value.nested) i = (argument args i).nested := by
  simp only [argument, List.getD_eq_getElem?_getD, List.getElem?_map]
  cases args[i]? <;> rfl

namespace Store

variable (n : Nesting) (s : Store)

@[simp] lemma getMember_nested (receiver : Value) (key : String) :
    (s.nested n).getMember receiver.nested key = (s.getMember receiver key).map Member.nested := by
  have text := s.display_nested n receiver
  cases receiver with
  | undefined => simp only [Value.nested, getMember] at text ⊢; rw [text]; rfl
  | null => simp only [Value.nested, getMember] at text ⊢; rw [text]; rfl
  | array ref =>
    simp only [Value.nested, getMember, array_nested, Array.size_map, Array.getElem?_map]
    split
    · rfl
    · split
      case h_1 i _ => cases (s.array ref)[i]? <;> rfl
      case h_2 => cases (ArrayMethod.ofName? key) <;> rfl
  | string t =>
    simp only [Value.nested, getMember]
    split
    · rfl
    · split
      case h_1 i _ => cases t.toList[i]? <;> rfl
      case h_2 => cases (StringMethod.ofName? key) <;> rfl
  | object ref =>
    simp only [Value.nested, getMember, record_nested, Record.get?_nested]
    cases (s.record ref).get? key <;> rfl
  | error ref =>
    simp only [Value.nested, getMember, error_nested]
    split
    · rfl
    · split <;> rfl
  | function ref =>
    simp only [Value.nested, getMember, closure_name_nested, closure_params_nested]
    split
    · rfl
    · split <;> rfl
  | builtin ref =>
    simp only [Value.nested, getMember, builtin_nested, BoundBuiltin.nested]
    split <;> rfl
  | _ => rfl

@[simp] lemma setMemberFault?_nested (receiver : Value) (key : String) :
    (s.nested n).setMemberFault? receiver.nested key = s.setMemberFault? receiver key := by
  have text := s.display_nested n receiver
  cases receiver <;> simp only [Value.nested, setMemberFault?] at text ⊢ <;> rw [text]

omit n s in
lemma setElement_nested (items : Array Value) (i : Nat) (v : Value) :
    (setElement items i v).map Value.nested = setElement (items.map Value.nested) i v.nested := by
  have missing : Value.undefined.nested = .undefined := rfl
  simp only [setElement, Array.size_map]
  split
  · exact Array.map_setIfInBounds
  · rw [Array.map_push, Array.map_append, Array.map_replicate, missing]

@[simp] lemma setMember_nested (receiver : Value) (key : String) (v : Value) :
    (s.setMember receiver key v).nested n =
      (s.nested n).setMember receiver.nested key v.nested := by
  cases receiver with
  | array ref =>
    simp only [Value.nested, setMember]
    split
    · exact s.nested_setArray n ref _ _ fun items => setElement_nested items _ v
    · rfl
  | object ref => exact s.nested_setRecord n ref _ _ fun r => r.nested_set key v
  | _ => rfl

@[simp] lemma foldNumbers_nested (args : List Value) (start : Float)
    (pick : Float → Float → Float) :
    (s.nested n).foldNumbers (args.map Value.nested) start pick =
      s.foldNumbers args start pick := by
  simp only [foldNumbers, List.map_map, Function.comp_def, toNumber_nested]

@[simp] lemma relativeIndex_nested (v : Value) (length whenMissing : Nat) :
    (s.nested n).relativeIndex v.nested length whenMissing =
      s.relativeIndex v length whenMissing := by
  have number := s.toNumber_nested n v
  cases v with
  | undefined => rfl
  | _ =>
    simp only [Value.nested] at number
    simp only [Value.nested, relativeIndex, number]

@[simp] lemma constructError_nested (kind : ErrorKind) (message : Value) :
    (s.nested n).constructError kind message.nested = s.constructError kind message := by
  have text := s.display_nested n message
  cases message <;> simp only [Value.nested, constructError] at text ⊢ <;> rw [text]

@[simp] lemma callStringMethod_nested (method : StringMethod) (text : String) (arg : Value) :
    (s.nested n).callStringMethod method text arg.nested =
      (s.callStringMethod method text arg).nested := by
  cases method with
  | toUpperCase => rfl
  | toLowerCase => rfl
  | charAt =>
    simp only [callStringMethod, toNumber_nested]
    split <;> split <;> rfl
  | indexOf =>
    simp only [callStringMethod, display_nested]
    split <;> simp only [Value.nested]

lemma callArrayMethod_nested (method : ArrayMethod) (ref : Ref) (args : List Value) :
    (s.nested n).callArrayMethod method ref (args.map Value.nested) =
      ((s.callArrayMethod method ref args).1.nested n,
        (s.callArrayMethod method ref args).2.nested) := by
  cases method with
  | push =>
    have pushed : (s.setArray ref fun items => items ++ args.toArray).nested n =
        (s.nested n).setArray ref fun items => items ++ (args.map Value.nested).toArray :=
      s.nested_setArray n ref _ _ fun items => by simp
    simp only [callArrayMethod, ← pushed, array_nested, Array.size_map]
    rfl
  | pop =>
    have popped : (s.setArray ref Array.pop).nested n = (s.nested n).setArray ref Array.pop :=
      s.nested_setArray n ref _ _ fun items => Array.map_pop
    simp only [callArrayMethod, ← popped, array_nested, Array.back?_map]
    cases (s.array ref).back? <;> rfl
  | indexOf =>
    simp only [callArrayMethod, array_nested, argument_nested, Array.findIdx?_map,
      Function.comp_def, Value.strictEq_nested]
    split <;> rfl
  | join =>
    have text := s.display_nested n (argument args 0)
    simp only [callArrayMethod, array_nested, argument_nested, join_nested]
    cases hsep : argument args 0 <;> simp only [hsep, Value.nested] at text ⊢ <;> rw [text]
  | slice =>
    simp only [callArrayMethod, array_nested, argument_nested, Array.size_map,
      relativeIndex_nested, ← Array.map_extract, newArray_nested]
  | _ => rfl

end Store

end ScriptDebugger
