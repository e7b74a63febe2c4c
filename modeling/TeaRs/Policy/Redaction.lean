import TeaRs.Policy.Approval
import TeaRs.Tools.Registry

/-!
# What a redacted presentation shows

Before the arguments of a call are shown to the person who is asked, the value of every object
member with a sensitive key is replaced (`tea-policy/src/redaction.rs`). What is shown depends on
the rest of the arguments only, and the rest is shown as it is.

## Main definitions

* `AgreePublicly`: two values differ at most inside the values of sensitive members.
* `Value.at?`, `Value.node`: the value at the end of a path, and what can be seen of it without its
  parts.
* `IsPublic`: a path that enters no sensitive member.

## Main results

* `redactValue_eq_iff`: two values are shown alike exactly if they agree publicly.
* `redactValue_redactValue`: a value that is already redacted is shown as it is.
* `at?_redactValue`: redaction keeps what is at the end of a public path.
* `presentedDepth_redactValue_le`, `isLocator_redactResource`: of the bounds of a presentation, only
  the number of bytes of the arguments can be exceeded.
-/

namespace TeaRs

/-! ### Values that differ in sensitive members only -/

mutual

/-- Two values are equal except inside the values of object members whose key is sensitive. -/
inductive AgreePublicly : Value → Value → Prop
  | refl (value : Value) : AgreePublicly value value
  | array {items items' : List Value} (agree : AgreeItems items items') :
    AgreePublicly (.array items) (.array items')
  | object {fields fields' : List (String × Value)} (agree : AgreeFields fields fields') :
    AgreePublicly (.object fields) (.object fields')

/-- The items of two arrays agree one by one. -/
inductive AgreeItems : List Value → List Value → Prop
  | nil : AgreeItems [] []
  | cons {item item' : Value} {items items' : List Value} (head : AgreePublicly item item')
    (tail : AgreeItems items items') : AgreeItems (item :: items) (item' :: items')

/-- The members of two objects have the same keys, and agree one by one unless the key is
sensitive. -/
inductive AgreeFields : List (String × Value) → List (String × Value) → Prop
  | nil : AgreeFields [] []
  | hidden {key : String} {value value' : Value} {fields fields' : List (String × Value)}
    (sensitive : sensitiveKey key = true) (tail : AgreeFields fields fields') :
    AgreeFields ((key, value) :: fields) ((key, value') :: fields')
  | shown {key : String} {value value' : Value} {fields fields' : List (String × Value)}
    (head : AgreePublicly value value') (tail : AgreeFields fields fields') :
    AgreeFields ((key, value) :: fields) ((key, value') :: fields')

end

mutual

theorem AgreePublicly.redactValue_eq {value value' : Value} :
    AgreePublicly value value' → redactValue value = redactValue value'
  | .refl _ => rfl
  | .array agree => by rw [redactValue, redactValue, agree.redactItems_eq]
  | .object agree => by rw [redactValue, redactValue, agree.redactFields_eq]

theorem AgreeItems.redactItems_eq {items items' : List Value} :
    AgreeItems items items' → redactItems items = redactItems items'
  | .nil => rfl
  | .cons head tail => by
    rw [redactItems, redactItems, head.redactValue_eq, tail.redactItems_eq]

theorem AgreeFields.redactFields_eq {fields fields' : List (String × Value)} :
    AgreeFields fields fields' → redactFields fields = redactFields fields'
  | .nil => rfl
  | .hidden sensitive tail => by
    rw [redactFields, redactFields, tail.redactFields_eq, if_pos sensitive, if_pos sensitive]
  | .shown head tail => by
    rw [redactFields, redactFields, tail.redactFields_eq, head.redactValue_eq]

end

theorem redactItems_eq_map (items : List Value) : redactItems items = items.map redactValue := by
  induction items with
  | nil => rfl
  | cons item items ih => rw [redactItems, ih, List.map_cons]

/-- What redaction makes of the value of a member. -/
def redactMember (key : String) (value : Value) : Value :=
  if sensitiveKey key then .string redacted else redactValue value

theorem redactFields_eq_map (fields : List (String × Value)) :
    redactFields fields = fields.map fun field => (field.1, redactMember field.1 field.2) := by
  induction fields with
  | nil => rfl
  | cons field fields ih => rw [redactFields, ih, List.map_cons, redactMember]

/-- Values that are redacted to the same value agree publicly. The text that stands for a sensitive
value cannot be taken for a value of its own, since the keys show where it stands. -/
theorem agreePublicly_of_redactValue_eq {value value' : Value}
    (same : redactValue value = redactValue value') : AgreePublicly value value' := by
  induction value using Value.inductionOn generalizing value' with
  | null | bool | number | string =>
    cases value' <;> simp only [redactValue, reduceCtorEq] at same
    first
      | exact .refl _
      | rw [same]; exact .refl _
  | array items ih =>
    cases value' with
    | array items' =>
      rw [redactValue, redactValue, Value.array.injEq] at same
      refine .array ?_
      induction items generalizing items' with
      | nil =>
        cases items' with
        | nil => exact .nil
        | cons item' items' => simp [redactItems] at same
      | cons item items ihItems =>
        cases items' with
        | nil => simp [redactItems] at same
        | cons item' items' =>
          rw [redactItems, redactItems, List.cons.injEq] at same
          obtain ⟨ihHead, ihTail⟩ := List.forall_mem_cons.mp ih
          exact .cons (ihHead same.1) (ihItems ihTail _ same.2)
    | _ => simp [redactValue] at same
  | object fields ih =>
    cases value' with
    | object fields' =>
      rw [redactValue, redactValue, Value.object.injEq] at same
      refine .object ?_
      induction fields generalizing fields' with
      | nil =>
        cases fields' with
        | nil => exact .nil
        | cons field' fields' => simp [redactFields] at same
      | cons field fields ihFields =>
        cases fields' with
        | nil => simp [redactFields] at same
        | cons field' fields' =>
          obtain ⟨key, value⟩ := field
          obtain ⟨key', value'⟩ := field'
          rw [redactFields, redactFields, List.cons.injEq, Prod.mk.injEq] at same
          obtain ⟨⟨rfl, sameValue⟩, sameTail⟩ := same
          obtain ⟨ihHead, ihTail⟩ := List.forall_mem_cons.mp ih
          by_cases sensitive : sensitiveKey key = true
          · exact .hidden sensitive (ihFields ihTail _ sameTail)
          · rw [if_neg sensitive, if_neg sensitive] at sameValue
            exact .shown (ihHead sameValue) (ihFields ihTail _ sameTail)
    | _ => simp [redactValue] at same

/-- Two values are shown alike exactly if they agree publicly. -/
theorem redactValue_eq_iff {value value' : Value} :
    redactValue value = redactValue value' ↔ AgreePublicly value value' :=
  ⟨agreePublicly_of_redactValue_eq, AgreePublicly.redactValue_eq⟩

/-! ### Redacting twice -/

theorem redactMember_redactMember {key : String} {value : Value}
    (again : redactValue (redactValue value) = redactValue value) :
    redactMember key (redactMember key value) = redactMember key value := by
  by_cases sensitive : sensitiveKey key = true
  · simp only [redactMember, if_pos sensitive]
  · simp only [redactMember, if_neg sensitive, again]

/-- Redacting a redacted value changes nothing. -/
theorem redactValue_redactValue (value : Value) :
    redactValue (redactValue value) = redactValue value := by
  induction value using Value.inductionOn with
  | null | bool | number | string => rfl
  | array items ih =>
    rw [redactValue, redactValue, redactItems_eq_map, redactItems_eq_map, List.map_map]
    exact congrArg Value.array (List.map_congr_left ih)
  | object fields ih =>
    rw [redactValue, redactValue, redactFields_eq_map, redactFields_eq_map, List.map_map]
    refine congrArg Value.object (List.map_congr_left fun field mem => ?_)
    exact congrArg (Prod.mk field.1) (redactMember_redactMember (ih field mem))

theorem redactArguments_eq_some {value : Value} {shown : RedactedArguments}
    (redacts : redactArguments value = some shown) : shown.value = redactValue value := by
  rw [redactArguments] at redacts
  split_ifs at redacts
  cases redacts
  rfl

theorem redactArguments_congr {value value' : Value}
    (same : redactValue value = redactValue value') :
    redactArguments value = redactArguments value' := by
  simp only [redactArguments, same]

/-! ### What stays visible -/

namespace Value

/-- A step into a value: to a member of an object or to an item of an array. -/
inductive PathStep where
  | key (name : String)
  | index (position : Nat)
  deriving DecidableEq, Repr

/-- The part of a value that is one step down. -/
def child? : PathStep → Value → Option Value
  | .key name, .object fields => fields.lookup name
  | .index position, .array items => items[position]?
  | _, _ => none

/-- The value at the end of a path. -/
def at? : List PathStep → Value → Option Value
  | [], value => some value
  | step :: path, value => (value.child? step).bind (at? path)

/-- What is seen of a value without its parts. -/
inductive Node where
  | scalar (value : Value)
  | array (length : Nat)
  | object (keys : List String)
  deriving DecidableEq

/-- The keys of an object, the length of an array, and a scalar itself. -/
def node : Value → Node
  | .array items => .array items.length
  | .object fields => .object (fields.map Prod.fst)
  | value => .scalar value

end Value

/-- A path that enters no sensitive member. -/
def IsPublic (path : List Value.PathStep) : Prop :=
  ∀ name, .key name ∈ path → sensitiveKey name = false

theorem lookup_redactFields (fields : List (String × Value)) (name : String) :
    (redactFields fields).lookup name = (fields.lookup name).map (redactMember name) := by
  induction fields with
  | nil => rfl
  | cons field fields ih =>
    obtain ⟨key, value⟩ := field
    rw [redactFields, List.lookup_cons, List.lookup_cons, ih]
    cases same : name == key with
    | true =>
      rw [eq_of_beq same]
      rfl
    | false => rfl

/-- A step that enters no sensitive member leads to the redacted part. -/
theorem child?_redactValue {step : Value.PathStep} (isPublic : IsPublic [step]) (value : Value) :
    (redactValue value).child? step = (value.child? step).map redactValue := by
  cases step with
  | index position =>
    cases value with
    | array items =>
      rw [redactValue, Value.child?, Value.child?, redactItems_eq_map, List.getElem?_map]
    | _ => rfl
  | key name =>
    have plain : sensitiveKey name = false := isPublic name (List.mem_singleton_self _)
    cases value with
    | object fields =>
      rw [redactValue, Value.child?, Value.child?, lookup_redactFields]
      congr 1
      funext value
      rw [redactMember, plain]
      rfl
    | _ => rfl

/-- At the end of a public path stands the redacted value. -/
theorem at?_redactValue {path : List Value.PathStep} (isPublic : IsPublic path) (value : Value) :
    (redactValue value).at? path = (value.at? path).map redactValue := by
  induction path generalizing value with
  | nil => rfl
  | cons step path ih =>
    have here : IsPublic [step] := fun name mem =>
      isPublic name (List.mem_cons.mpr (.inl (List.mem_singleton.mp mem)))
    have below : IsPublic path := fun name mem => isPublic name (List.mem_cons_of_mem _ mem)
    rw [Value.at?, Value.at?, child?_redactValue here]
    cases value.child? step with
    | none => rfl
    | some part => exact ih below part

theorem node_redactValue (value : Value) : (redactValue value).node = value.node := by
  cases value with
  | array items => rw [redactValue, Value.node, Value.node, redactItems_eq_map, List.length_map]
  | object fields =>
    rw [redactValue, Value.node, Value.node, redactFields_eq_map, List.map_map]
    rfl
  | _ => rfl

/-- The presentation of arguments does not depend on the values of sensitive members, is not changed
by redacting it again, and keeps every key, every length and every scalar that is not inside such a
value, at its path. -/
theorem redactArguments_hides_sensitive :
    (∀ value value', AgreePublicly value value' →
      redactArguments value = redactArguments value') ∧
    (∀ value, redactValue (redactValue value) = redactValue value) ∧
    (∀ value shown, redactArguments value = some shown →
      redactArguments shown.value = some shown ∧
      ∀ path, IsPublic path →
        (shown.value.at? path).map Value.node = (value.at? path).map Value.node) := by
  refine ⟨fun value value' agree => redactArguments_congr agree.redactValue_eq,
    redactValue_redactValue, fun value shown redacts => ⟨?_, fun path isPublic => ?_⟩⟩
  · rw [← redacts, redactArguments_eq_some redacts]
    exact redactArguments_congr (redactValue_redactValue value)
  · rw [redactArguments_eq_some redacts, at?_redactValue isPublic, Option.map_map]
    exact congrArg (Option.map · _) (funext node_redactValue)

/-- Two requests that differ in a nested access token only. -/
theorem redactArguments_hides_sensitive_token :
    let request (token : String) : Value :=
      .object [("headers", .array [.object [("Access-Token", .string token)]]),
        ("url", .string "https://example.com")]
    redactArguments (request "one") = redactArguments (request "two") ∧
    ∃ shown, redactArguments (request "one") = some shown ∧
      (shown.value.at? [.key "url"]).map Value.node =
        some (.scalar (.string "https://example.com")) := by
  intro request
  have sensitive : sensitiveKey "Access-Token" = true := by decide
  have agree : AgreePublicly (request "one") (request "two") :=
    .object (.shown (.array (.cons (.object (.hidden sensitive .nil)) .nil)) (.shown (.refl _) .nil))
  have small : (redactArguments (request "one")).isSome = true := by decide +kernel
  obtain ⟨shown, redacts⟩ := Option.isSome_iff_exists.mp small
  have plain : IsPublic [.key "url"] := by
    intro name mem
    cases List.mem_singleton.mp mem
    decide
  refine ⟨redactArguments_hides_sensitive.1 _ _ agree, shown, redacts, ?_⟩
  rw [(redactArguments_hides_sensitive.2.2 _ shown redacts).2 _ plain]
  decide

/-! ### The bounds of a presentation -/

namespace Value

theorem one_le_presentedDepth (value : Value) : 1 ≤ value.presentedDepth := by
  cases value <;> simp [presentedDepth]

theorem itemsPresentedDepth_le_iff {items : List Value} {depth : Nat} :
    itemsPresentedDepth items ≤ depth ↔ ∀ item ∈ items, item.presentedDepth ≤ depth := by
  induction items with
  | nil => simp [itemsPresentedDepth]
  | cons item items ih => rw [itemsPresentedDepth, Nat.max_le, ih, List.forall_mem_cons]

theorem fieldsPresentedDepth_le_iff {fields : List (String × Value)} {depth : Nat} :
    fieldsPresentedDepth fields ≤ depth ↔ ∀ field ∈ fields, field.2.presentedDepth ≤ depth := by
  induction fields with
  | nil => simp [fieldsPresentedDepth]
  | cons field fields ih => rw [fieldsPresentedDepth, Nat.max_le, ih, List.forall_mem_cons]

end Value

/-- Redaction does not make a value deeper. -/
theorem presentedDepth_redactValue_le (value : Value) :
    (redactValue value).presentedDepth ≤ value.presentedDepth := by
  induction value using Value.inductionOn with
  | null | bool | number | string => exact le_rfl
  | array items ih =>
    rw [redactValue, Value.presentedDepth, Value.presentedDepth, redactItems_eq_map]
    refine Nat.add_le_add_left (Value.itemsPresentedDepth_le_iff.mpr ?_) 1
    intro item mem
    obtain ⟨original, here, rfl⟩ := List.mem_map.mp mem
    exact (ih original here).trans (Value.itemsPresentedDepth_le_iff.mp le_rfl original here)
  | object fields ih =>
    rw [redactValue, Value.presentedDepth, Value.presentedDepth, redactFields_eq_map]
    refine Nat.add_le_add_left (Value.fieldsPresentedDepth_le_iff.mpr ?_) 1
    intro field mem
    obtain ⟨original, here, rfl⟩ := List.mem_map.mp mem
    refine le_trans ?_ (Value.fieldsPresentedDepth_le_iff.mp le_rfl original here)
    change (redactMember original.1 original.2).presentedDepth ≤ _
    rw [redactMember]
    split_ifs
    · exact original.2.one_le_presentedDepth
    · exact ih original here

theorem exists_redactArguments_iff {arguments : Value}
    (valid : isInvocationArguments arguments = true) :
    (∃ shown, redactArguments arguments = some shown) ↔
      (redactValue arguments).encodedLength ≤ maxRedactedBytes := by
  simp only [isInvocationArguments, Bool.and_eq_true, decide_eq_true_eq] at valid
  have shallow := (presentedDepth_redactValue_le arguments).trans valid.2
  rw [redactArguments]
  constructor
  · rintro ⟨shown, redacts⟩
    split_ifs at redacts with bounded
    exact bounded.1
  · intro short
    exact ⟨_, dif_pos ⟨short, shallow⟩⟩

theorem takeBytes_isPrefix (maxBytes : Nat) (chars : List Char) :
    takeBytes maxBytes chars <+: chars := by
  induction chars generalizing maxBytes with
  | nil => exact List.prefix_rfl
  | cons c chars ih =>
    rw [takeBytes]
    split_ifs
    · exact (List.prefix_cons_inj c).mpr (ih _)
    · exact List.nil_prefix

theorem sum_takeBytes_le (maxBytes : Nat) (chars : List Char) :
    ((takeBytes maxBytes chars).map Char.utf8Size).sum ≤ maxBytes := by
  induction chars generalizing maxBytes with
  | nil => exact Nat.zero_le _
  | cons c chars ih =>
    rw [takeBytes]
    split_ifs with fits
    · rw [List.map_cons, List.sum_cons]
      have := ih (maxBytes - c.utf8Size)
      omega
    · exact Nat.zero_le _

theorem toList_truncateUtf8 (value : String) (maxBytes : Nat) :
    (truncateUtf8 value maxBytes).toList = takeBytes maxBytes value.toList :=
  String.toList_ofList

/-- A truncated text is a locator if the whole text starts with an ASCII letter and has no control
character. -/
theorem isLocator_truncateUtf8 {value : String} {first : Char}
    (starts : value.toList.head? = some first) (single : first.utf8Size ≤ 2048)
    (plain : value.toList.any isControl = false) : isLocator (truncateUtf8 value 2048) = true := by
  have nonempty : (truncateUtf8 value 2048).toList ≠ [] := by
    obtain ⟨rest, starts⟩ := List.head?_eq_some_iff.mp starts
    rw [toList_truncateUtf8, starts, takeBytes, if_pos single]
    exact List.cons_ne_nil _ _
  have short : (truncateUtf8 value 2048).utf8ByteSize ≤ 2048 := by
    rw [utf8ByteSize_eq_sum, toList_truncateUtf8]
    exact sum_takeBytes_le _ _
  have plainPart : (truncateUtf8 value 2048).toList.any isControl = false := by
    rw [List.any_eq_false] at plain ⊢
    intro c mem
    rw [toList_truncateUtf8] at mem
    exact plain c ((takeBytes_isPrefix _ _).subset mem)
  have notEmpty : (truncateUtf8 value 2048).isEmpty = false := by
    rw [← Bool.not_eq_true, String.isEmpty_iff]
    intro empty
    exact nonempty (by rw [empty]; rfl)
  rw [isLocator, notEmpty, plainPart, decide_eq_true short]
  rfl

theorem isControl_of_schemeChar {c : Char}
    (scheme : (isAsciiLowercase c || isAsciiDigit c || c == '-') = true) :
    isControl c = false := by
  simp only [isAsciiLowercase, isAsciiDigit, Bool.or_eq_true, Bool.and_eq_true, decide_eq_true_eq,
    beq_iff_eq, Char.le_def, UInt32.le_iff_toNat_le] at scheme
  have low : 32 ≤ c.toNat ∧ c.toNat < 127 := by
    rcases scheme with (⟨above, below⟩ | ⟨above, below⟩) | rfl
    · exact ⟨le_trans (by decide) above, lt_of_le_of_lt below (by decide)⟩
    · exact ⟨le_trans (by decide) above, lt_of_le_of_lt below (by decide)⟩
    · decide
  simp only [isControl, Bool.or_eq_false_iff, Bool.and_eq_false_iff, decide_eq_false_iff_not]
  omega

/-- Every resource of an invocation can be shown. -/
theorem isLocator_redactResource (resource : ToolResource) :
    isLocator (redactResource resource.scheme resource.locator) = true := by
  obtain ⟨scheme, locator⟩ := resource.valid
  rw [isScheme, Bool.and_eq_true, isCanonicalWord] at scheme
  rw [isLocator, Bool.and_eq_true, Bool.not_eq_true'] at locator
  split at scheme
  · simp at scheme
  · next first rest starts =>
    obtain ⟨-, scheme⟩ := scheme
    rw [Bool.and_eq_true, List.all_eq_true] at scheme
    have plainFirst : isControl first = false :=
      isControl_of_schemeChar (by rw [scheme.1, Bool.true_or, Bool.true_or])
    have plainScheme : resource.scheme.toList.any isControl = false := by
      rw [starts, List.any_cons, plainFirst, Bool.false_or, List.any_eq_false]
      intro c mem
      rw [isControl_of_schemeChar (scheme.2 c mem)]
      simp
    rw [redactResource]
    refine isLocator_truncateUtf8 ?_ (le_trans first.utf8Size_le_four (by decide)) ?_
    · rw [String.toList_append, String.toList_append, starts]
      rfl
    · rw [String.toList_append, String.toList_append, List.any_append, List.any_append, plainScheme]
      split_ifs
      · decide
      · have base : (String.ofList (resource.locator.toList.takeWhile (· != '?'))).toList.any
            isControl = false := by
          rw [String.toList_ofList, List.any_eq_false]
          rw [List.any_eq_false] at locator
          exact fun c mem => locator.2 c ((List.takeWhile_prefix _).subset mem)
        rw [String.toList_append, String.toList_append, List.any_append, List.any_append, base]
        decide
      · rw [locator.2]
        decide

end TeaRs
