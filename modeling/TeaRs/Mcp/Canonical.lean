import TeaRs.Lib.Sorting
import TeaRs.Lib.StateError
import TeaRs.Mcp.Connection
import TeaRs.Protocol.Content

/-!
# The canonical form of JSON

A server may list the fields of an object in any order, and two values that differ in such orders
only are equal. `canonicalize` (`tea-mcp/src/descriptor.rs`) sorts the fields of every object, so that
equal values become identical and can be printed and hashed.

## Main definitions

* `Value.jsonEq`: equality of values, with the fields of an object in any order.
* `Value.DistinctKeys`: no object has two fields of the same key.
* `Value.sortKeys`: the value with the fields of every object in the order of their keys.
* `canonicalize`, `canonicalJson`.

## Main results

* `Value.sortKeys_eq_iff`: two values have the same canonical form exactly if they are equal.
-/

namespace TeaRs

open List

theorem lookup_eq_some_iff_mem {α β : Type} [BEq α] [LawfulBEq α] {pairs : List (α × β)}
    (distinct : (pairs.map Prod.fst).Nodup) {key : α} {value : β} :
    pairs.lookup key = some value ↔ (key, value) ∈ pairs := by
  induction pairs with
  | nil => simp
  | cons pair pairs ih =>
    rw [map_cons, nodup_cons] at distinct
    rw [lookup_cons, mem_cons, ← ih distinct.2]
    by_cases same : key = pair.1
    · subst same
      have absent : pairs.lookup pair.1 ≠ some value := fun found =>
        distinct.1 (mem_map.mpr ⟨_, (ih distinct.2).mp found, rfl⟩)
      simp [absent, Prod.ext_iff, eq_comm]
    · have other : (key == pair.1) = false := beq_eq_false_iff_ne.mpr same
      simp [other, same, Prod.ext_iff]

theorem sortByKey_eq_iff_perm {α κ : Type} [Ord κ] [Std.TransOrd κ] [Std.LawfulEqOrd κ]
    {key : α → κ} {items items' : List α} (distinct : (items.map key).Nodup)
    (distinct' : (items'.map key).Nodup) :
    sortByKey key items = sortByKey key items' ↔ items.Perm items' := by
  constructor
  · intro same
    exact (perm_sortByKey key items).symm.trans (same ▸ perm_sortByKey key items')
  · intro perm
    refine eq_of_pairwise_key (pairwise_sortByKey distinct) (pairwise_sortByKey distinct') ?_
    intro a
    rw [mem_sortByKey, mem_sortByKey, perm.mem_iff]

namespace Value

/-! ### Equality -/

mutual

/-- Equality of `serde_json` values: of objects, that they have the same number of fields and each
field of the first is found in the second with an equal value. -/
def jsonEq : Value → Value → Bool
  | .null, .null => true
  | .bool a, .bool b => a == b
  | .number a, .number b => a == b
  | .string a, .string b => a == b
  | .array a, .array b => jsonEqItems a b
  | .object a, .object b => a.length == b.length && jsonEqFields a b
  | _, _ => false

/-- Equality of the items of two arrays. -/
def jsonEqItems : List Value → List Value → Bool
  | [], [] => true
  | a :: as, b :: bs => jsonEq a b && jsonEqItems as bs
  | _, _ => false

/-- Every field of the first list is found in the second with an equal value. -/
def jsonEqFields : List (String × Value) → List (String × Value) → Bool
  | [], _ => true
  | (key, value) :: rest, fields =>
    (match fields.lookup key with
      | some other => jsonEq value other
      | none => false) && jsonEqFields rest fields

end

mutual

/-- No object in the value has two fields of the same key. -/
def DistinctKeys : Value → Prop
  | .array items => DistinctKeysItems items
  | .object fields => (fields.map Prod.fst).Nodup ∧ DistinctKeysFields fields
  | _ => True

/-- No item of an array has an object with two fields of the same key. -/
def DistinctKeysItems : List Value → Prop
  | [] => True
  | item :: items => DistinctKeys item ∧ DistinctKeysItems items

/-- No field of an object has an object with two fields of the same key. -/
def DistinctKeysFields : List (String × Value) → Prop
  | [] => True
  | (_, value) :: fields => DistinctKeys value ∧ DistinctKeysFields fields

end

mutual

/-- The value with the fields of every object in the order of their keys. -/
def sortKeys : Value → Value
  | .array items => .array (sortKeysItems items)
  | .object fields => .object (sortByKey Prod.fst (sortKeysFields fields))
  | value => value

/-- The items of an array, each with its fields in order. -/
def sortKeysItems : List Value → List Value
  | [] => []
  | item :: items => sortKeys item :: sortKeysItems items

/-- The fields of an object, each value with its own fields in order. -/
def sortKeysFields : List (String × Value) → List (String × Value)
  | [] => []
  | (key, value) :: fields => (key, sortKeys value) :: sortKeysFields fields

end

theorem jsonEqItems_iff {as bs : List Value} :
    jsonEqItems as bs = true ↔ List.Forall₂ (fun a b => jsonEq a b = true) as bs := by
  induction as generalizing bs with
  | nil => cases bs <;> simp [jsonEqItems]
  | cons a as ih => cases bs <;> simp [jsonEqItems, ih]

variable {fields : List (String × Value)} {items : List Value} {value : Value} {depth : Nat}

theorem jsonEqFields_iff {others : List (String × Value)} : jsonEqFields fields others = true ↔
      ∀ field ∈ fields, ∃ other, others.lookup field.1 = some other ∧ jsonEq field.2 other = true :=
    by
  induction fields with
  | nil => simp [jsonEqFields]
  | cons field fields ih =>
    rw [jsonEqFields, Bool.and_eq_true, ih, forall_mem_cons]
    cases others.lookup field.1 <;> simp

theorem distinctKeysItems_iff : DistinctKeysItems items ↔ ∀ item ∈ items, item.DistinctKeys := by
  induction items with
  | nil => simp [DistinctKeysItems]
  | cons item items ih => rw [DistinctKeysItems, ih, forall_mem_cons]

theorem distinctKeysFields_iff :
    DistinctKeysFields fields ↔ ∀ field ∈ fields, field.2.DistinctKeys := by
  induction fields with
  | nil => simp [DistinctKeysFields]
  | cons field fields ih => rw [DistinctKeysFields, ih, forall_mem_cons]

theorem sortKeysItems_eq (items : List Value) : sortKeysItems items = items.map sortKeys := by
  induction items with
  | nil => rfl
  | cons item items ih => rw [sortKeysItems, ih, map_cons]

theorem sortKeysFields_eq (fields : List (String × Value)) :
    sortKeysFields fields = fields.map fun field => (field.1, field.2.sortKeys) := by
  induction fields with
  | nil => rfl
  | cons field fields ih => rw [sortKeysFields, ih, map_cons]

theorem map_fst_sortKeysFields (fields : List (String × Value)) :
    (sortKeysFields fields).map Prod.fst = fields.map Prod.fst := by
  rw [sortKeysFields_eq, map_map]
  rfl

theorem map_sortKeys_eq_iff {others : List Value} (values : ∀ item ∈ items, ∀ other ∈ others,
      item.sortKeys = other.sortKeys ↔ item.jsonEq other = true) :
    items.map sortKeys = others.map sortKeys ↔
      List.Forall₂ (fun a b => jsonEq a b = true) items others := by
  induction items generalizing others with
  | nil => cases others <;> simp
  | cons item items ih =>
    cases others with
    | nil => simp
    | cons other others =>
      rw [map_cons, map_cons, cons.injEq, forall₂_cons,
        values item mem_cons_self other mem_cons_self,
        ih fun item mem other mem' =>
          values item (mem_cons_of_mem _ mem) other (mem_cons_of_mem _ mem')]

/-- The fields of two objects have the same canonical forms exactly if there are as many, and each
of the first is found in the second with an equal value. -/
theorem perm_sortKeysFields_iff {others : List (String × Value)}
    (distinct : (fields.map Prod.fst).Nodup) (distinct' : (others.map Prod.fst).Nodup)
    (values : ∀ field ∈ fields, ∀ other ∈ others,
      field.2.sortKeys = other.2.sortKeys ↔ field.2.jsonEq other.2 = true) :
    (sortKeysFields fields).Perm (sortKeysFields others) ↔
      fields.length = others.length ∧ jsonEqFields fields others = true := by
  rw [sortKeysFields_eq, sortKeysFields_eq, jsonEqFields_iff]
  constructor
  · intro perm
    refine ⟨by simpa using perm.length_eq, fun field mem => ?_⟩
    obtain ⟨other, mem', same⟩ := mem_map.mp
      (perm.mem_iff.mp (mem_map_of_mem (f := fun field => (field.1, field.2.sortKeys)) mem))
    obtain ⟨key, value⟩ := Prod.mk.inj same
    refine ⟨other.2, (lookup_eq_some_iff_mem distinct').mpr (key ▸ mem'), ?_⟩
    exact (values field mem other mem').mp value.symm
  · rintro ⟨length, found⟩
    have nodup : (fields.map fun field => (field.1, field.2.sortKeys)).Nodup := by
      refine List.Nodup.of_map Prod.fst ?_
      rw [map_map]
      exact distinct
    refine (subperm_of_subset nodup fun pair mem => ?_).perm_of_length_le (by simp [length])
    obtain ⟨field, first, rfl⟩ := mem_map.mp mem
    obtain ⟨other, lookup, equal⟩ := found field first
    have second := (lookup_eq_some_iff_mem distinct').mp lookup
    refine mem_map.mpr ⟨(field.1, other), second, ?_⟩
    rw [(values field first _ second).mpr equal]

/-- Two values have the same canonical form exactly if they are equal. -/
theorem sortKeys_eq_iff {other : Value} (distinct : value.DistinctKeys)
    (distinct' : other.DistinctKeys) :
    value.sortKeys = other.sortKeys ↔ value.jsonEq other = true := by
  induction value using Value.inductionOn generalizing other with
  | null | bool value | number literal | string value => cases other <;> simp [sortKeys, jsonEq]
  | array items ih =>
    cases other with
    | array others =>
      rw [DistinctKeys, distinctKeysItems_iff] at distinct distinct'
      rw [sortKeys, sortKeys, array.injEq, sortKeysItems_eq, sortKeysItems_eq, jsonEq,
        jsonEqItems_iff]
      exact map_sortKeys_eq_iff fun item mem other mem' => ih item mem (distinct item mem)
        (distinct' other mem')
    | _ => simp [sortKeys, jsonEq]
  | object fields ih =>
    cases other with
    | object others =>
      rw [DistinctKeys, distinctKeysFields_iff] at distinct distinct'
      have keys := map_fst_sortKeysFields fields ▸ distinct.1
      have keys' := map_fst_sortKeysFields others ▸ distinct'.1
      rw [sortKeys, sortKeys, object.injEq, sortByKey_eq_iff_perm keys keys',
        perm_sortKeysFields_iff distinct.1 distinct'.1 fun field mem other mem' =>
          ih field mem (distinct.2 field mem) (distinct'.2 other mem')]
      simp [jsonEq]
    | _ => simp [sortKeys, jsonEq]

theorem DistinctKeys.sortKeys (distinct : value.DistinctKeys) : value.sortKeys.DistinctKeys := by
  induction value using Value.inductionOn with
  | null | bool | number | string => trivial
  | array items ih =>
    rw [DistinctKeys, distinctKeysItems_iff] at distinct
    rw [Value.sortKeys, DistinctKeys, distinctKeysItems_iff, sortKeysItems_eq, forall_mem_map]
    exact fun item mem => ih item mem (distinct item mem)
  | object fields ih =>
    rw [DistinctKeys, distinctKeysFields_iff] at distinct
    rw [Value.sortKeys, DistinctKeys, distinctKeysFields_iff]
    refine ⟨?_, fun field mem => ?_⟩
    · rw [((perm_sortByKey Prod.fst _).map Prod.fst).nodup_iff, map_fst_sortKeysFields]
      exact distinct.1
    · rw [mem_sortByKey, sortKeysFields_eq] at mem
      obtain ⟨field, member, rfl⟩ := mem_map.mp mem
      exact ih field member (distinct.2 field member)

theorem sortKeys_sortKeys (value : Value) : value.sortKeys.sortKeys = value.sortKeys := by
  induction value using Value.inductionOn with
  | null | bool | number | string => rfl
  | array items ih =>
    rw [sortKeys, sortKeys, sortKeysItems_eq, sortKeysItems_eq, map_map]
    exact congrArg array (map_congr_left ih)
  | object fields ih =>
    have values : sortKeysFields (sortKeysFields fields) = sortKeysFields fields := by
      rw [sortKeysFields_eq (sortKeysFields fields), sortKeysFields_eq, map_map]
      exact map_congr_left fun field mem => congrArg (Prod.mk field.1) (ih field mem)
    have sorted : sortByKey Prod.fst (sortByKey Prod.fst (sortKeysFields fields)) =
        sortByKey Prod.fst (sortKeysFields fields) :=
      sortByKey_eq_self_iff.mpr (pairwise_isLE_sortByKey _ _)
    have moved : sortKeysFields (sortByKey Prod.fst (sortKeysFields fields)) =
        sortByKey Prod.fst (sortKeysFields (sortKeysFields fields)) := by
      rw [sortKeysFields_eq, sortKeysFields_eq (sortKeysFields fields), sortByKey_map]
    rw [sortKeys, sortKeys, moved, values, sorted]

end Value

namespace Mcp

open StateError

/-- `MAX_DESCRIPTOR_DEPTH`. -/
def maxDescriptorDepth : Nat := 32

mutual

/-- `canonicalize`. The fields are sorted when their values are canonical; the source sorts them
before, but its only error does not depend on their order. -/
def canonicalize (depth : Nat) : Value → Except McpErrorCode Value
  | .array items =>
    if maxDescriptorDepth < depth then .error .outputBound
    else do return .array (← canonicalizeItems (depth + 1) items)
  | .object fields =>
    if maxDescriptorDepth < depth then .error .outputBound
    else do return .object (sortByKey Prod.fst (← canonicalizeFields (depth + 1) fields))
  | value => if maxDescriptorDepth < depth then .error .outputBound else .ok value

/-- The items of an array, one after another. -/
def canonicalizeItems (depth : Nat) : List Value → Except McpErrorCode (List Value)
  | [] => .ok []
  | item :: items => do
    let item ← canonicalize depth item
    return item :: (← canonicalizeItems depth items)

/-- The fields of an object, one after another. -/
def canonicalizeFields (depth : Nat) :
    List (String × Value) → Except McpErrorCode (List (String × Value))
  | [] => .ok []
  | (key, value) :: fields => do
    let value ← canonicalize depth value
    return (key, value) :: (← canonicalizeFields depth fields)

end

theorem canonicalizeItems_eq_ok {canonical : List Value}
    (values : ∀ item ∈ items, ∀ {canonical}, canonicalize depth item = .ok canonical →
      canonical = item.sortKeys)
    (ok : canonicalizeItems depth items = .ok canonical) :
    canonical = Value.sortKeysItems items := by
  induction items generalizing canonical with
  | nil =>
    cases ok
    rfl
  | cons item items ih =>
    obtain ⟨first, head, ok⟩ := except_bind_eq_ok.mp ok
    obtain ⟨rest, tail, ok⟩ := except_bind_eq_ok.mp ok
    cases ok
    rw [Value.sortKeysItems, values item mem_cons_self head,
      ih (fun item mem => values item (mem_cons_of_mem _ mem)) tail]

theorem canonicalizeFields_eq_ok {canonical : List (String × Value)}
    (values : ∀ field ∈ fields, ∀ {canonical}, canonicalize depth field.2 = .ok canonical →
      canonical = field.2.sortKeys)
    (ok : canonicalizeFields depth fields = .ok canonical) :
    canonical = Value.sortKeysFields fields := by
  induction fields generalizing canonical with
  | nil =>
    cases ok
    rfl
  | cons field fields ih =>
    obtain ⟨first, head, ok⟩ := except_bind_eq_ok.mp ok
    obtain ⟨rest, tail, ok⟩ := except_bind_eq_ok.mp ok
    cases ok
    rw [Value.sortKeysFields, values field mem_cons_self head,
      ih (fun field mem => values field (mem_cons_of_mem _ mem)) tail]

theorem canonicalize_eq_ok {canonical : Value}
    (ok : canonicalize depth value = .ok canonical) : canonical = value.sortKeys := by
  induction value using Value.inductionOn generalizing depth canonical with
  | null | bool | number | string =>
    simp only [canonicalize] at ok
    split_ifs at ok
    cases ok
    rfl
  | array items ih =>
    rw [canonicalize] at ok
    split_ifs at ok
    obtain ⟨items', first, ok⟩ := except_bind_eq_ok.mp ok
    cases ok
    rw [Value.sortKeys, canonicalizeItems_eq_ok (fun item mem => ih item mem) first]
  | object fields ih =>
    rw [canonicalize] at ok
    split_ifs at ok
    obtain ⟨fields', first, ok⟩ := except_bind_eq_ok.mp ok
    cases ok
    rw [Value.sortKeys, canonicalizeFields_eq_ok (fun field mem => ih field mem) first]

end Mcp

end TeaRs
