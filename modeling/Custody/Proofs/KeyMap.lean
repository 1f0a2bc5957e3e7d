import Custody.Key.Private

set_option autoImplicit false

/-! # Keys under their public halves

A wallet keeps its private keys in a map from public keys. What makes such a map trustworthy is
`KeyMap.Filed`: every key lies under its own public half and is one that can be made at all. Such a
map is determined by the list of its keys, which is what a sealed copy holds of it. -/

namespace Custody

/-- The values of a map are the second components of its entries, in the same order. -/
theorem map_snd_toList {α β : Type} {cmp : α → α → Ordering} [Std.TransCmp cmp]
    (t : Std.ExtTreeMap α β cmp) : t.toList.map Prod.snd = t.values := by
  obtain ⟨⟨t⟩⟩ := t
  induction t using Quotient.ind with
  | _ t =>
    show (Std.DTreeMap.Internal.Impl.Const.toList t.inner).map Prod.snd = t.inner.values
    rw [Std.DTreeMap.Internal.Impl.values_eq_map_snd,
      Std.DTreeMap.Internal.Impl.Const.toList_eq_toListModel_map]
    simp

namespace KeyMap

/-- The keys of a list under their public halves; of several with the same one, the last. -/
def ofKeys (keys : List PrivateKey) : KeyMap :=
  Std.ExtTreeMap.ofList (keys.map fun key => (key.publicKey, key))

/-! ## Something that holds of every entry -/

/-- Every entry is as stated. -/
def Every (P : PublicKey → PrivateKey → Prop) (keys : KeyMap) : Prop :=
  ∀ (pub : PublicKey) (key : PrivateKey), keys[pub]? = some key → P pub key

section Every

variable {P : PublicKey → PrivateKey → Prop} {keys : KeyMap}

theorem every_empty : Every P ∅ := by
  intro pub key h
  simp at h

theorem Every.insert (h : keys.Every P) {pub : PublicKey} {key : PrivateKey} (hkey : P pub key) :
    Every P (keys.insert pub key) := by
  intro pub' key' hget
  rw [Std.ExtTreeMap.getElem?_insert] at hget
  split at hget
  · rename_i heq
    rw [Std.LawfulEqOrd.compare_eq_iff_eq] at heq
    cases hget
    exact heq ▸ hkey
  · exact h pub' key' hget

theorem Every.erase (h : keys.Every P) (pub : PublicKey) : Every P (keys.erase pub) := by
  intro pub' key hget
  rw [Std.ExtTreeMap.getElem?_erase] at hget
  split at hget
  · exact absurd hget (by simp)
  · exact h pub' key hget

/-- What holds of every key of a map holds of all that are listed of it. -/
theorem Every.of_mem_values {Q : PrivateKey → Prop} (h : keys.Every fun _ key => Q key)
    {key : PrivateKey} (hkey : key ∈ keys.values) : Q key := by
  rw [← map_snd_toList, List.mem_map] at hkey
  obtain ⟨⟨pub, key'⟩, hmem, rfl⟩ := hkey
  exact h pub key' (Std.ExtTreeMap.mem_toList_iff_getElem?_eq_some.1 hmem)

theorem Every.foldl_insert (h : keys.Every P) {added : List PrivateKey}
    (hadded : ∀ key ∈ added, P key.publicKey key) :
    Every P (added.foldl (fun acc key => acc.insert key.publicKey key) keys) := by
  induction added generalizing keys with
  | nil => exact h
  | cons key added ih =>
    exact ih (h.insert (hadded key List.mem_cons_self))
      fun key' hkey' => hadded key' (List.mem_cons_of_mem key hkey')

/-- What holds of all keys of a list holds of the entries of their map. -/
theorem every_ofKeys {keys : List PrivateKey} (h : ∀ key ∈ keys, P key.publicKey key) :
    (ofKeys keys).Every P := by
  unfold ofKeys
  rw [Std.ExtTreeMap.ofList_eq_foldl, List.foldl_map]
  exact every_empty.foldl_insert h

end Every

/-- Every key lies under its own public half, and is one that can be made. -/
def Filed [Suite] (keys : KeyMap) : Prop :=
  ∀ (pub : PublicKey) (key : PrivateKey), keys[pub]? = some key →
    key.publicKey = pub ∧ key.WellFormed

/-! ## Maps that stay filed -/

section Filed

variable [Suite] {keys : KeyMap}

theorem Filed.empty : Filed (∅ : KeyMap) := every_empty

theorem Filed.insert (h : keys.Filed) {key : PrivateKey} (hkey : key.WellFormed) :
    Filed (keys.insert key.publicKey key) :=
  Every.insert h ⟨rfl, hkey⟩

theorem Filed.erase (h : keys.Filed) (pub : PublicKey) : Filed (keys.erase pub) :=
  Every.erase h pub

/-- However keys were opened, their map is filed. -/
theorem filed_ofKeys {keys : List PrivateKey} (h : ∀ key ∈ keys, key.WellFormed) :
    (ofKeys keys).Filed :=
  every_ofKeys fun key hkey => ⟨rfl, h key hkey⟩

/-! ## Maps and lists of keys -/

theorem Filed.every_wellFormed (h : keys.Filed) : keys.Every fun _ key => key.WellFormed :=
  fun pub key hget => (h pub key hget).2

theorem Filed.wellFormed_of_mem_values (h : keys.Filed) {key : PrivateKey}
    (hkey : key ∈ keys.values) : key.WellFormed :=
  h.every_wellFormed.of_mem_values hkey

/-- A filed map is the map of its keys. -/
theorem Filed.ofKeys_values (h : keys.Filed) : ofKeys keys.values = keys := by
  have hentries : (keys.values.map fun key => (key.publicKey, key)) = keys.toList := by
    rw [← map_snd_toList, List.map_map]
    calc
      _ = keys.toList.map id := by
        apply List.map_congr_left
        intro ⟨pub, key⟩ hmem
        have hpub := (h pub key (Std.ExtTreeMap.mem_toList_iff_getElem?_eq_some.1 hmem)).1
        simp [hpub]
      _ = keys.toList := List.map_id _
  unfold ofKeys
  rw [hentries]
  apply Std.ExtTreeMap.ext_getElem?
  intro pub
  cases hget : keys[pub]? with
  | some key =>
    exact Std.ExtTreeMap.getElem?_ofList_of_mem Std.ReflCmp.compare_self
      Std.ExtTreeMap.distinct_keys_toList
      (Std.ExtTreeMap.mem_toList_iff_getElem?_eq_some.2 hget)
  | none =>
    apply Std.ExtTreeMap.getElem?_ofList_of_contains_eq_false
    rw [Std.ExtTreeMap.map_fst_toList_eq_keys, Std.ExtTreeMap.contains_keys,
      Std.ExtTreeMap.contains_eq_isSome_getElem?, hget]
    rfl

end Filed

end KeyMap

end Custody
