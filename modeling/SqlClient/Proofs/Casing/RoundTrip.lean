import Mathlib.Data.Set.Function
import SqlClient.Proofs.Casing.Words
import SqlClient.Proofs.Value.Equality
/-!
# Changing the case and back

On names made of plain words the two spellings determine each other. A value whose keys are all
spelled in one way is therefore only relabelled: no two keys of a map meet, entries keep their
order, and converting back restores the value.
-/
namespace SqlClient

namespace Casing

/-- A small word, then any number of words that start with a capital. -/
def camelKeys : Set String :=
  {k | ∃ (first : List Char) (rest : List (List Char)), SmallWord first ∧
    (∀ w ∈ rest, CapitalWord w) ∧ k.toList = first ++ rest.flatten}

/-- A small word, then any number of words of two letters or more, each after an underscore. -/
def snakeKeys : Set String :=
  {k | ∃ (first : List Char) (rest : List (List Char)), SmallWord first ∧
    (∀ w ∈ rest, LongWord w) ∧ k.toList = first ++ rest.flatMap ('_' :: ·)}

theorem storageChars_camel {first : List Char} {rest : List (List Char)} (hf : SmallWord first)
    (hr : ∀ w ∈ rest, CapitalWord w) :
    storageChars (first ++ rest.flatten) =
      first ++ (rest.map lowercaseWord).flatMap ('_' :: ·) := by
  rw [storageChars, words_camel hf hr, List.map_cons, lowercaseWord_small hf.forall_isSmall,
    intercalate_underscore]

theorem applicationChars_snake {first : List Char} {rest : List (List Char)}
    (hf : SmallWord first) (hr : ∀ w ∈ rest, LongWord w) :
    applicationChars (first ++ rest.flatMap ('_' :: ·)) =
      first ++ (rest.map capitalizeWord).flatten := by
  have storage : ∀ w ∈ first :: rest, StorageWord w :=
    List.forall_mem_cons.mpr ⟨hf.storageWord, fun w hw => (hr w hw).smallWord.storageWord⟩
  rw [applicationChars, ← intercalate_underscore, words_intercalate storage]
  dsimp only
  rw [lowercaseWord_small hf.forall_isSmall, List.flatMap_def]

theorem forall_longWord {rest : List (List Char)} (h : ∀ w ∈ rest, CapitalWord w) :
    ∀ w ∈ rest.map lowercaseWord, LongWord w :=
  List.forall_mem_map.mpr fun w hw => (h w hw).longWord_lowercaseWord

theorem forall_capitalWord {rest : List (List Char)} (h : ∀ w ∈ rest, LongWord w) :
    ∀ w ∈ rest.map capitalizeWord, CapitalWord w :=
  List.forall_mem_map.mpr fun w hw => (h w hw).capitalWord_capitalizeWord

theorem mapsTo_storageKey : Set.MapsTo storageKey camelKeys snakeKeys := by
  rintro k ⟨first, rest, hf, hr, hk⟩
  refine ⟨first, rest.map lowercaseWord, hf, forall_longWord hr, ?_⟩
  rw [storageKey, String.toList_ofList, hk, storageChars_camel hf hr]

theorem mapsTo_applicationKey : Set.MapsTo applicationKey snakeKeys camelKeys := by
  rintro k ⟨first, rest, hf, hr, hk⟩
  refine ⟨first, rest.map capitalizeWord, hf, forall_capitalWord hr, ?_⟩
  rw [applicationKey, String.toList_ofList, hk, applicationChars_snake hf hr]

/-- On words that start with a capital, raising the first letter undoes lowering it. -/
theorem leftInvOn_applicationKey : Set.LeftInvOn applicationKey storageKey camelKeys := by
  rintro k ⟨first, rest, hf, hr, hk⟩
  have back : (rest.map lowercaseWord).map capitalizeWord = rest := by
    rw [List.map_map]
    exact (List.map_congr_left fun w hw => (hr w hw).capitalizeWord_lowercaseWord).trans
      (List.map_id' rest)
  rw [← String.toList_inj, applicationKey, storageKey, String.toList_ofList, String.toList_ofList,
    hk, storageChars_camel hf hr, applicationChars_snake hf (forall_longWord hr), back]

theorem leftInvOn_storageKey : Set.LeftInvOn storageKey applicationKey snakeKeys := by
  rintro k ⟨first, rest, hf, hr, hk⟩
  have back : (rest.map capitalizeWord).map lowercaseWord = rest := by
    rw [List.map_map]
    exact (List.map_congr_left fun w hw => (hr w hw).lowercaseWord_capitalizeWord).trans
      (List.map_id' rest)
  rw [← String.toList_inj, storageKey, applicationKey, String.toList_ofList, String.toList_ofList,
    hk, applicationChars_snake hf hr, storageChars_camel hf (forall_capitalWord hr), back]

end Casing

namespace Value

mutual

/-- Spell every key with `f`, entry by entry, whatever becomes of the others. -/
def relabel (f : String → String) : Value → Value
  | .array items => .array (relabelItems f items)
  | .map fields => .map (relabelFields f fields)
  | v => v

def relabelItems (f : String → String) : List Value → List Value
  | [] => []
  | v :: vs => v.relabel f :: relabelItems f vs

def relabelFields (f : String → String) : List (String × Value) → List (String × Value)
  | [] => []
  | (k, v) :: rest => (f k, v.relabel f) :: relabelFields f rest

end

theorem map_fst_relabelFields (f : String → String) (fields : List (String × Value)) :
    (relabelFields f fields).map Prod.fst = fields.map fun p => f p.1 := by
  induction fields with
  | nil => rfl
  | cons p fields ih =>
    obtain ⟨k, v⟩ := p
    rw [relabelFields, List.map_cons, List.map_cons, ih]

/-- Keys that a map has once are once in it after a change that tells them apart. -/
theorem FieldsKeyedBy.nodup {f : String → String} {keys : Set String} (hf : Set.InjOn f keys)
    {fields : List (String × Value)} (distinct : (fields.map Prod.fst).Nodup)
    (h : FieldsKeyedBy keys fields) : (fields.map fun p => f p.1).Nodup := by
  have apart := distinct.map_on fun k hk l hl => hf (h.forall_mem k hk) (h.forall_mem l hl)
  rwa [List.map_map] at apart

section Relabelled

variable {f g : String → String} {source target : Set String}

mutual

theorem KeyedBy.relabel (maps : Set.MapsTo f source target) (injective : Set.InjOn f source)
    {v : Value} (h : v.KeyedBy source) : (v.relabel f).KeyedBy target := by
  cases v with
  | array items =>
    rw [Value.relabel]
    exact ItemsKeyedBy.relabel maps injective h
  | map fields =>
    rw [Value.relabel, KeyedBy, map_fst_relabelFields]
    exact ⟨h.2.nodup injective h.1, FieldsKeyedBy.relabel maps injective h.2⟩
  | _ => exact trivial

theorem ItemsKeyedBy.relabel (maps : Set.MapsTo f source target) (injective : Set.InjOn f source)
    {items : List Value} (h : ItemsKeyedBy source items) :
    ItemsKeyedBy target (relabelItems f items) := by
  cases items with
  | nil => exact trivial
  | cons v items =>
    exact ⟨KeyedBy.relabel maps injective h.1, ItemsKeyedBy.relabel maps injective h.2⟩

theorem FieldsKeyedBy.relabel (maps : Set.MapsTo f source target) (injective : Set.InjOn f source)
    {fields : List (String × Value)} (h : FieldsKeyedBy source fields) :
    FieldsKeyedBy target (relabelFields f fields) := by
  cases fields with
  | nil => exact trivial
  | cons p fields =>
    obtain ⟨k, v⟩ := p
    exact ⟨maps h.1, KeyedBy.relabel maps injective h.2.1,
      FieldsKeyedBy.relabel maps injective h.2.2⟩

end

mutual

/-- Where `f` tells the keys apart, nothing is merged: the conversion relabels the entries. -/
theorem KeyedBy.renameKeys_eq (injective : Set.InjOn f source) {v : Value}
    (h : v.KeyedBy source) : Casing.renameKeys f v = v.relabel f := by
  cases v with
  | array items =>
    rw [Casing.renameKeys, Value.relabel, ItemsKeyedBy.renameItems_eq injective h]
  | map fields =>
    rw [Casing.renameKeys, Value.relabel, FieldsKeyedBy.renameFields_eq injective h.2,
      ofList_eq_self]
    rw [map_fst_relabelFields]
    exact h.2.nodup injective h.1
  | _ => rfl

theorem ItemsKeyedBy.renameItems_eq (injective : Set.InjOn f source) {items : List Value}
    (h : ItemsKeyedBy source items) : Casing.renameItems f items = relabelItems f items := by
  cases items with
  | nil => rfl
  | cons v items =>
    rw [Casing.renameItems, relabelItems, KeyedBy.renameKeys_eq injective h.1,
      ItemsKeyedBy.renameItems_eq injective h.2]

theorem FieldsKeyedBy.renameFields_eq (injective : Set.InjOn f source)
    {fields : List (String × Value)} (h : FieldsKeyedBy source fields) :
    Casing.renameFields f fields = relabelFields f fields := by
  cases fields with
  | nil => rfl
  | cons p fields =>
    obtain ⟨k, v⟩ := p
    rw [Casing.renameFields, relabelFields, KeyedBy.renameKeys_eq injective h.2.1,
      FieldsKeyedBy.renameFields_eq injective h.2.2]

end

mutual

theorem KeyedBy.relabel_relabel (inverse : Set.LeftInvOn g f source) {v : Value}
    (h : v.KeyedBy source) : (v.relabel f).relabel g = v := by
  cases v with
  | array items => rw [Value.relabel, Value.relabel, ItemsKeyedBy.relabel_relabel inverse h]
  | map fields => rw [Value.relabel, Value.relabel, FieldsKeyedBy.relabel_relabel inverse h.2]
  | _ => rfl

theorem ItemsKeyedBy.relabel_relabel (inverse : Set.LeftInvOn g f source) {items : List Value}
    (h : ItemsKeyedBy source items) : relabelItems g (relabelItems f items) = items := by
  cases items with
  | nil => rfl
  | cons v items =>
    rw [relabelItems, relabelItems, KeyedBy.relabel_relabel inverse h.1,
      ItemsKeyedBy.relabel_relabel inverse h.2]

theorem FieldsKeyedBy.relabel_relabel (inverse : Set.LeftInvOn g f source)
    {fields : List (String × Value)} (h : FieldsKeyedBy source fields) :
    relabelFields g (relabelFields f fields) = fields := by
  cases fields with
  | nil => rfl
  | cons p fields =>
    obtain ⟨k, v⟩ := p
    rw [relabelFields, relabelFields, inverse h.1, KeyedBy.relabel_relabel inverse h.2.1,
      FieldsKeyedBy.relabel_relabel inverse h.2.2]

end

/-- A change of case that can be undone relabels a value, and undoing it gives the value back. -/
theorem KeyedBy.renamed (maps : Set.MapsTo f source target) (inverse : Set.LeftInvOn g f source)
    (back : Set.InjOn g target) {v : Value} (h : v.KeyedBy source) :
    Casing.renameKeys f v = v.relabel f ∧ (v.relabel f).KeyedBy target ∧
      Casing.renameKeys g (Casing.renameKeys f v) = v := by
  have relabelled := h.renameKeys_eq inverse.injOn
  have there := h.relabel maps inverse.injOn
  refine ⟨relabelled, there, ?_⟩
  rw [relabelled, there.renameKeys_eq back, h.relabel_relabel inverse]

end Relabelled

end Value

namespace Casing

/-- The two spellings correspond, and so do values with keys spelled in one or the other way. -/
theorem spellings_correspond :
    Set.BijOn storageKey camelKeys snakeKeys ∧ Set.BijOn applicationKey snakeKeys camelKeys ∧
      Set.InvOn applicationKey storageKey camelKeys snakeKeys ∧
      (∀ v : Value, v.KeyedBy camelKeys →
        toStorageCase v = v.relabel storageKey ∧ (v.relabel storageKey).KeyedBy snakeKeys ∧
          toApplicationCase (toStorageCase v) = v) ∧
      ∀ v : Value, v.KeyedBy snakeKeys →
        toApplicationCase v = v.relabel applicationKey ∧
          (v.relabel applicationKey).KeyedBy camelKeys ∧
          toStorageCase (toApplicationCase v) = v := by
  have inverse : Set.InvOn applicationKey storageKey camelKeys snakeKeys :=
    ⟨leftInvOn_applicationKey, leftInvOn_storageKey⟩
  refine ⟨inverse.bijOn mapsTo_storageKey mapsTo_applicationKey,
    inverse.symm.bijOn mapsTo_applicationKey mapsTo_storageKey, inverse, ?_, ?_⟩
  · intro v hv
    exact hv.renamed mapsTo_storageKey leftInvOn_applicationKey leftInvOn_storageKey.injOn
  · intro v hv
    exact hv.renamed mapsTo_applicationKey leftInvOn_storageKey leftInvOn_applicationKey.injOn

def orderWithLines : Value :=
  .map [("userId", .int 7),
    ("line2Items", .array [.map [("unitPrice", .null), ("tax", .bool true)]])]

theorem mem_camelKeys_user : "userId" ∈ camelKeys := by
  refine ⟨['u', 's', 'e', 'r'], [['I', 'd']], ⟨rfl, by simp [IsSmall]⟩, ?_, by decide⟩
  exact List.forall_mem_singleton.mpr ⟨rfl, rfl, by simp [IsSmall]⟩

theorem mem_camelKeys_lines : "line2Items" ∈ camelKeys := by
  refine ⟨['l', 'i', 'n', 'e', '2'], [['I', 't', 'e', 'm', 's']], ⟨rfl, ?_⟩, ?_, by decide⟩
  · simp [IsSmall]
  · exact List.forall_mem_singleton.mpr ⟨rfl, rfl, by simp [IsSmall]⟩

theorem mem_camelKeys_price : "unitPrice" ∈ camelKeys := by
  refine ⟨['u', 'n', 'i', 't'], [['P', 'r', 'i', 'c', 'e']], ⟨rfl, ?_⟩, ?_, by decide⟩
  · simp [IsSmall]
  · exact List.forall_mem_singleton.mpr ⟨rfl, rfl, by simp [IsSmall]⟩

theorem mem_camelKeys_tax : "tax" ∈ camelKeys :=
  ⟨['t', 'a', 'x'], [], ⟨rfl, by simp [IsSmall]⟩, nofun, by decide⟩

theorem keyedBy_orderWithLines : orderWithLines.KeyedBy camelKeys := by
  have line : (Value.map [("unitPrice", .null), ("tax", .bool true)]).KeyedBy camelKeys :=
    ⟨by decide, mem_camelKeys_price, trivial, mem_camelKeys_tax, trivial, trivial⟩
  exact ⟨by decide, mem_camelKeys_user, trivial, mem_camelKeys_lines, ⟨line, trivial⟩, trivial⟩

theorem spellings_correspond_order :
    orderWithLines.KeyedBy camelKeys ∧
      toStorageCase orderWithLines =
        .map [("user_id", .int 7),
          ("line2_items", .array [.map [("unit_price", .null), ("tax", .bool true)]])] ∧
      toApplicationCase (toStorageCase orderWithLines) = orderWithLines := by
  obtain ⟨-, -, -, camel, -⟩ := spellings_correspond
  obtain ⟨relabelled, -, back⟩ := camel orderWithLines keyedBy_orderWithLines
  refine ⟨keyedBy_orderWithLines, ?_, back⟩
  have user : storageKey "userId" = "user_id" := by decide +kernel
  have lines : storageKey "line2Items" = "line2_items" := by decide +kernel
  have price : storageKey "unitPrice" = "unit_price" := by decide +kernel
  have tax : storageKey "tax" = "tax" := by decide +kernel
  rw [relabelled]
  simp only [orderWithLines, Value.relabel, Value.relabelFields, Value.relabelItems, user, lines,
    price, tax]

end Casing

end SqlClient
