import Mathlib.Data.Set.Insert
import SqlClient.Proofs.Value.Named
/-!
# Equality of values

What holds of every value is proved for those without parts, for arrays and for maps. The keys of
the maps inside a value stand once each, and all of them are of one kind; a `KeyedValue` carries
that. Maps are equal if they have the same keys with equal values under them, in whatever order; so
it is at every depth.
-/
namespace SqlClient

namespace Value

/-- Induction on the arrays and maps in a value. -/
@[elab_as_elim]
theorem induction {P : Value → Prop} (leaf : ∀ v, v.asArray? = none → v.asMap? = none → P v)
    (array : ∀ items, (∀ v ∈ items, P v) → P (.array items))
    (map : ∀ fields, (∀ f ∈ fields, P f.2) → P (.map fields)) : ∀ v : Value, P v
  | .array items => array items fun v _ => induction leaf array map v
  | .map fields => map fields fun f _ => induction leaf array map f.2
  | .null => leaf _ rfl rfl
  | .bool _ => leaf _ rfl rfl
  | .int _ => leaf _ rfl rfl
  | .float _ => leaf _ rfl rfl
  | .decimal _ => leaf _ rfl rfl
  | .text _ => leaf _ rfl rfl
  | .bytes _ => leaf _ rfl rfl
  | .timestamp _ => leaf _ rfl rfl
  | .date _ => leaf _ rfl rfl
  | .uuid _ => leaf _ rfl rfl
termination_by v => sizeOf v
decreasing_by
  · have smaller := List.sizeOf_lt_of_mem ‹_ ∈ items›
    rw [Value.array.sizeOf_spec]
    omega
  · have smaller := List.sizeOf_lt_of_mem ‹_ ∈ fields›
    obtain ⟨k, v⟩ := f
    rw [Prod.mk.sizeOf_spec] at smaller
    rw [Value.map.sizeOf_spec]
    dsimp only
    omega

mutual

/-- Every map inside has each of its keys once, and all of them are among `keys`. -/
def KeyedBy (keys : Set String) : Value → Prop
  | .array items => ItemsKeyedBy keys items
  | .map fields => (fields.map Prod.fst).Nodup ∧ FieldsKeyedBy keys fields
  | _ => True

def ItemsKeyedBy (keys : Set String) : List Value → Prop
  | [] => True
  | v :: vs => v.KeyedBy keys ∧ ItemsKeyedBy keys vs

def FieldsKeyedBy (keys : Set String) : List (String × Value) → Prop
  | [] => True
  | (k, v) :: rest => k ∈ keys ∧ v.KeyedBy keys ∧ FieldsKeyedBy keys rest

end

variable {keys keys' : Set String} {items : List Value} {fields : List (String × Value)}

/-- What has no parts has no keys. -/
theorem keyedBy_of_leaf {v : Value} (ha : v.asArray? = none) (hm : v.asMap? = none) :
    v.KeyedBy keys := by
  cases v with
  | array => cases ha
  | map => cases hm
  | _ => trivial

theorem itemsKeyedBy_iff : ItemsKeyedBy keys items ↔ ∀ v ∈ items, v.KeyedBy keys := by
  induction items with
  | nil => simp [ItemsKeyedBy]
  | cons v items ih => simp [ItemsKeyedBy, ih]

theorem fieldsKeyedBy_iff :
    FieldsKeyedBy keys fields ↔ ∀ f ∈ fields, f.1 ∈ keys ∧ f.2.KeyedBy keys := by
  induction fields with
  | nil => simp [FieldsKeyedBy]
  | cons f fields ih =>
    obtain ⟨k, v⟩ := f
    simp [FieldsKeyedBy, ih, and_assoc]

theorem keyedBy_array : (array items).KeyedBy keys ↔ ∀ v ∈ items, v.KeyedBy keys := by
  rw [KeyedBy, itemsKeyedBy_iff]

theorem keyedBy_map : (map fields).KeyedBy keys ↔
    (fields.map Prod.fst).Nodup ∧ ∀ f ∈ fields, f.1 ∈ keys ∧ f.2.KeyedBy keys := by
  rw [KeyedBy, fieldsKeyedBy_iff]

theorem FieldsKeyedBy.forall_mem (h : FieldsKeyedBy keys fields) :
    ∀ k ∈ fields.map Prod.fst, k ∈ keys :=
  List.forall_mem_map.mpr fun f hf => (fieldsKeyedBy_iff.mp h f hf).1

/-- Of the keys that a value has, only those matter. -/
theorem KeyedBy.iff_of_forall {kept : Set String} {v : Value} (h : v.KeyedBy kept)
    (same : ∀ k ∈ kept, k ∈ keys ↔ k ∈ keys') : v.KeyedBy keys ↔ v.KeyedBy keys' := by
  induction v using induction with
  | leaf v ha hm => exact iff_of_true (keyedBy_of_leaf ha hm) (keyedBy_of_leaf ha hm)
  | array items ih =>
    rw [keyedBy_array] at h ⊢
    rw [keyedBy_array]
    exact forall₂_congr fun v hv => ih v hv (h v hv)
  | map fields ih =>
    rw [keyedBy_map] at h ⊢
    rw [keyedBy_map]
    refine and_congr_right fun _ => forall₂_congr fun f hf => ?_
    obtain ⟨key, value⟩ := h.2 f hf
    exact and_congr (same f.1 key) (ih f hf value)

inductive Agrees : Value → Value → Prop where
  | leaf {v w : Value} : v.asArray? = none → v.asMap? = none → numEq v w = true → Agrees v w
  | array {xs ys : List Value} : List.Forall₂ Agrees xs ys → Agrees (.array xs) (.array ys)
  | map {a b : Fields} : (∀ k, k ∈ a.keys ↔ k ∈ b.keys) →
      (∀ k x y, a.get? k = some x → b.get? k = some y → Agrees x y) → Agrees (.map a) (.map b)

variable {xs ys : List Value} {a b : Fields}

theorem itemsEq_iff : itemsEq xs ys = true ↔ List.Forall₂ (numEq · · = true) xs ys := by
  refine ⟨fun h => ?_, itemsEq_of_forall₂⟩
  induction xs generalizing ys with
  | nil =>
    cases ys with
    | nil => exact .nil
    | cons y ys => cases h
  | cons x xs ih =>
    cases ys with
    | nil => cases h
    | cons y ys =>
      obtain ⟨first, rest⟩ := Bool.and_eq_true_iff.mp h
      exact .cons first (ih rest)

theorem fieldsWithin_iff : fieldsWithin a b = true ↔
    ∀ f ∈ a, ∃ y, b.get? f.1 = some y ∧ numEq f.2 y = true := by
  refine ⟨fun h => ?_, fieldsWithin_of⟩
  induction a with
  | nil => exact fun f hf => absurd hf List.not_mem_nil
  | cons f a ih =>
    obtain ⟨k, x⟩ := f
    obtain ⟨first, rest⟩ := Bool.and_eq_true_iff.mp h
    refine List.forall_mem_cons.mpr ⟨?_, ih rest⟩
    split at first
    · exact ⟨_, ‹_›, first⟩
    · cases first

/-- Fields with all keys of others, and no more of them, have no further keys. -/
theorem keys_iff_of_subset (ha : a.keys.Nodup) (length : a.length = b.length)
    (within : ∀ k ∈ a.keys, k ∈ b.keys) (k : String) : k ∈ a.keys ↔ k ∈ b.keys := by
  have shorter : b.keys.length ≤ a.keys.length := by
    rw [Fields.keys, Fields.keys, List.length_map, List.length_map, length]
  exact ((List.subperm_of_subset ha within).perm_of_length_le shorter).mem_iff

/-- Maps are equal if they hold the same keys with equal values, whatever the order. -/
theorem numEq_map_iff (ha : a.keys.Nodup) (hb : b.keys.Nodup) :
    numEq (.map a) (.map b) = true ↔ (∀ k, k ∈ a.keys ↔ k ∈ b.keys) ∧
      ∀ k x y, a.get? k = some x → b.get? k = some y → x.numEq y = true := by
  rw [numEq, Bool.and_eq_true, beq_iff_eq, fieldsWithin_iff]
  constructor
  · rintro ⟨length, within⟩
    refine ⟨keys_iff_of_subset ha length fun k hk => ?_, fun k x y hx hy => ?_⟩
    · obtain ⟨v, hv⟩ := Fields.exists_get?_of_mem_keys hk
      obtain ⟨y, found, -⟩ := within _ (Fields.mem_of_get? hv)
      exact Fields.mem_keys_of_get? found
    · obtain ⟨y', found, equal⟩ := within _ (Fields.mem_of_get? hx)
      obtain rfl : y = y' := Option.some.inj (hy.symm.trans found)
      exact equal
  · rintro ⟨same, equal⟩
    have order := ((List.perm_ext_iff_of_nodup ha hb).mpr same).length_eq
    rw [Fields.keys, Fields.keys, List.length_map, List.length_map] at order
    refine ⟨order, fun f hf => ?_⟩
    obtain ⟨y, found⟩ := Fields.exists_get?_of_mem_keys ((same f.1).mp (List.mem_map_of_mem hf))
    exact ⟨y, found, equal f.1 f.2 y (Json.lookup_of_mem ha hf) found⟩

theorem agrees_array_iff : Agrees (.array xs) (.array ys) ↔ List.Forall₂ Agrees xs ys := by
  refine ⟨fun h => ?_, .array⟩
  cases h with
  | leaf ha => cases ha
  | array each => exact each

theorem agrees_map_iff : Agrees (.map a) (.map b) ↔ (∀ k, k ∈ a.keys ↔ k ∈ b.keys) ∧
    ∀ k x y, a.get? k = some x → b.get? k = some y → Agrees x y := by
  refine ⟨fun h => ?_, fun h => .map h.1 h.2⟩
  cases h with
  | leaf _ hm => cases hm
  | map same each => exact ⟨same, each⟩

theorem Agrees.of_array {w : Value} (h : Agrees (.array xs) w) : ∃ ys, w = .array ys := by
  cases h with
  | leaf ha => cases ha
  | array => exact ⟨_, rfl⟩

theorem Agrees.of_map {w : Value} (h : Agrees (.map a) w) : ∃ b, w = .map b := by
  cases h with
  | leaf _ hm => cases hm
  | map => exact ⟨_, rfl⟩

theorem forall₂_iff_of_mem {R S : Value → Value → Prop}
    (h : ∀ x ∈ xs, ∀ y ∈ ys, (R x y ↔ S x y)) : List.Forall₂ R xs ys ↔ List.Forall₂ S xs ys := by
  induction xs generalizing ys with
  | nil => rw [List.forall₂_nil_left_iff, List.forall₂_nil_left_iff]
  | cons x xs ih =>
    cases ys with
    | nil => exact iff_of_false nofun nofun
    | cons y ys =>
      rw [List.forall₂_cons, List.forall₂_cons, h x List.mem_cons_self y List.mem_cons_self,
        ih fun x hx y hy => h x (List.mem_cons_of_mem _ hx) y (List.mem_cons_of_mem _ hy)]

theorem numEq_iff_agrees {v w : Value} (hv : v.KeyedBy Set.univ) (hw : w.KeyedBy Set.univ) :
    numEq v w = true ↔ v.Agrees w := by
  induction v using induction generalizing w with
  | leaf v ha hm =>
    refine ⟨.leaf ha hm, ?_⟩
    rintro (⟨-, -, equal⟩ | _ | _)
    · exact equal
    · cases ha
    · cases hm
  | array items ih =>
    cases w with
    | array others =>
      rw [keyedBy_array] at hv hw
      rw [numEq, itemsEq_iff, agrees_array_iff]
      exact forall₂_iff_of_mem fun v h w h' => ih v h (hv v h) (hw w h')
    | _ =>
      constructor
      · intro h
        cases h
      · intro h
        obtain ⟨_, ⟨⟩⟩ := h.of_array
  | map fields ih =>
    cases w with
    | map others =>
      rw [keyedBy_map] at hv hw
      rw [numEq_map_iff hv.1 hw.1, agrees_map_iff]
      refine and_congr_right fun _ => forall₃_congr fun k x y => ?_
      refine forall₂_congr fun hx hy => ?_
      have left := Fields.mem_of_get? hx
      have right := Fields.mem_of_get? hy
      exact ih (k, x) left (hv.2 _ left).2 (hw.2 _ right).2
    | _ =>
      constructor
      · intro h
        cases h
      · intro h
        obtain ⟨_, ⟨⟩⟩ := h.of_map

end Value

/-- A value in whose maps, at every depth, each key stands once. -/
structure KeyedValue where
  value : Value
  keyed : value.KeyedBy Set.univ

/-- A record of such values. -/
structure KeyedRecord extends Record where
  keyed : ∀ v ∈ toRecord.values, v.KeyedBy Set.univ

def KeyedRecord.toValue (r : KeyedRecord) : KeyedValue where
  value := .map r.fields
  keyed := Value.keyedBy_map.mpr ⟨r.distinct, fun f hf =>
    ⟨Set.mem_univ f.1, r.keyed f.2 (List.mem_map_of_mem hf)⟩⟩

theorem Record.numEq_iff (a b : Record) : a.numEq b = true ↔ (∀ k, k ∈ a.keys ↔ k ∈ b.keys) ∧
    ∀ k x y, a.get? k = some x → b.get? k = some y → x.numEq y = true :=
  Value.numEq_map_iff a.distinct b.distinct

/-- Equality is agreement at every depth. -/
theorem KeyedValue.numEq_iff (v w : KeyedValue) :
    v.value.numEq w.value = true ↔ v.value.Agrees w.value :=
  Value.numEq_iff_agrees v.keyed w.keyed

end SqlClient
