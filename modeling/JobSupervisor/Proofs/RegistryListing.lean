import JobSupervisor.Proofs.ByteOrder
import JobSupervisor.Proofs.RegistryHistory
import Mathlib.Data.List.Dedup

/-!
# The listing of a registry

The entries of a registry may be met in any order; a listing sorts them by the bytes of their
names.  As no two entries have the same name there is only one outcome, and it is the list that
the registry keeps anyway.

## Main definitions

* `NameMap.mem_toList_iff` — the entries of a map are its keys with their values.
* `NameMap.eq_of_get?` — a map is known by the values of its keys.
* `Registry.sorted` — entries in ascending order of the bytes of their names.
* `Registry.sorted_eq_listing` — entries that were met in any order, sorted, are the listing.
* `Registry.size_eq_length_dedup` — the registry counts the distinct names that have a record.
-/

namespace JobSupervisor

namespace NameMap

variable {α : Type} {key : String} {a : α}

theorem find?_eq_some_iff {l : List (String × α)} (h : l.Pairwise fun x y => x.1 < y.1) :
    find? key l = some a ↔ (key, a) ∈ l := by
  induction l with
  | nil => simp [find?]
  | cons e l ih =>
      obtain ⟨k, b⟩ := e
      obtain ⟨hfirst, hrest⟩ := List.pairwise_cons.1 h
      by_cases hk : k = key
      · subst hk
        have hnot : (k, a) ∉ l := fun hmem => String.lt_irrefl k (hfirst (k, a) hmem)
        simp [find?, hnot, eq_comm]
      · simp [find?, hk, Ne.symm hk, ih hrest]

/-- The entries of a map are its keys with their values. -/
theorem mem_toList_iff (m : NameMap α) : (key, a) ∈ m.toList ↔ m.get? key = some a :=
  (find?_eq_some_iff m.ascending).symm

theorem mem_keys_iff (m : NameMap α) : key ∈ m.keys ↔ (m.get? key).isSome = true := by
  rw [keys, List.mem_map, Option.isSome_iff_exists]
  constructor
  · rintro ⟨⟨k, a⟩, hmem, rfl⟩
    exact ⟨a, m.mem_toList_iff.1 hmem⟩
  · rintro ⟨a, hget⟩
    exact ⟨(key, a), m.mem_toList_iff.2 hget, rfl⟩

/-- The keys ascend in the order of their bytes. -/
theorem pairwise_keys (m : NameMap α) :
    m.keys.Pairwise fun a b => Text.Utf8.encode a < Text.Utf8.encode b :=
  List.pairwise_map.2 (m.ascending.imp fun h => (Text.Utf8.encode_lt_encode_iff _ _).2 h)

theorem nodup_keys (m : NameMap α) : m.keys.Nodup := by
  refine List.Pairwise.imp ?_ m.pairwise_keys
  rintro a b hlt rfl
  exact List.lt_irrefl _ hlt

/-- Two maps with the same keys list them alike. -/
theorem keys_eq_of_isSome {β : Type} {m : NameMap α} {m' : NameMap β}
    (h : ∀ key, (m.get? key).isSome = (m'.get? key).isSome) : m.keys = m'.keys := by
  have hperm : m.keys.Perm m'.keys :=
    (List.perm_ext_iff_of_nodup m.nodup_keys m'.nodup_keys).2 fun key => by
      rw [m.mem_keys_iff, m'.mem_keys_iff, h]
  refine hperm.eq_of_pairwise ?_ m.pairwise_keys m'.pairwise_keys
  intro a b _ _ hab hba
  exact absurd hab (List.lt_asymm hba)

/-- A map is known by the values of its keys. -/
theorem eq_of_get? {m m' : NameMap α} (h : ∀ key, m.get? key = m'.get? key) : m = m' := by
  have hnodup (m : NameMap α) : m.entries.Nodup := List.Nodup.of_map Prod.fst m.nodup_keys
  have hperm : m.entries.Perm m'.entries :=
    (List.perm_ext_iff_of_nodup (hnodup m) (hnodup m')).2 fun e => by
      have hiff : e ∈ m.toList ↔ e ∈ m'.toList := by
        rw [m.mem_toList_iff, m'.mem_toList_iff, h]
      exact hiff
  have hentries : m.entries = m'.entries := by
    refine hperm.eq_of_pairwise ?_ m.ascending m'.ascending
    intro a b _ _ hab hba
    exact absurd hab (String.lt_asymm hba)
  obtain ⟨entries, ascending⟩ := m
  obtain rfl : entries = m'.entries := hentries
  rfl

end NameMap

namespace Health.Registry

variable {name : String} {id : RecordId}

/-- Whether an entry may stand before another one: the bytes of its name are not greater. -/
def precedes (a b : String × RecordId) : Bool :=
  Text.Utf8.encode a.1 ≤ Text.Utf8.encode b.1

/-- Entries in ascending order of the bytes of their names. -/
def sorted (entries : List (String × RecordId)) : List (String × RecordId) :=
  entries.mergeSort precedes

theorem mem_listing_iff (g : Registry) : (name, id) ∈ g.listing ↔ g.lookup name = some id :=
  g.directory.mem_toList_iff

theorem mem_names_iff (g : Registry) : name ∈ g.names ↔ (g.lookup name).isSome = true :=
  g.directory.mem_keys_iff

/-- **In whatever order the entries are met, sorted they are the listing.** -/
theorem sorted_eq_listing {g : Registry} {entries : List (String × RecordId)}
    (h : entries.Perm g.listing) : sorted entries = g.listing := by
  have hsorted : (sorted entries).Pairwise fun a b => precedes a b = true :=
    List.pairwise_mergeSort
      (fun a b c hab hbc => by
        simp only [precedes, decide_eq_true_eq] at hab hbc ⊢
        exact List.le_trans hab hbc)
      (fun a b => by
        simpa [precedes] using List.le_total (Text.Utf8.encode a.1) (Text.Utf8.encode b.1))
      entries
  have hlisting : g.listing.Pairwise fun a b => precedes a b = true :=
    g.directory.ascending.imp fun hlt => by
      simpa [precedes] using List.le_of_lt ((Text.Utf8.encode_lt_encode_iff _ _).2 hlt)
  have hperm : (sorted entries).Perm g.listing := (List.mergeSort_perm entries precedes).trans h
  refine hperm.eq_of_pairwise ?_ hsorted hlisting
  -- Entries that may stand before each other have the same name, so they are the same entry.
  intro a b ha hb hab hba
  have hbytes : Text.Utf8.encode a.1 = Text.Utf8.encode b.1 :=
    List.le_antisymm (of_decide_eq_true hab) (of_decide_eq_true hba)
  have hname : a.1 = b.1 := Text.Utf8.encode_injective hbytes
  have hlookup := g.mem_listing_iff.1 (hperm.mem_iff.1 ha)
  rw [hname, g.mem_listing_iff.1 hb] at hlookup
  exact Prod.ext hname (Option.some.inj hlookup).symm

/-- The registry counts the distinct names among those that have a record. -/
theorem size_eq_length_dedup {g : Registry} {created : List String}
    (h : ∀ name, (g.lookup name).isSome = true ↔ name ∈ created) :
    g.size = created.dedup.length := by
  have hperm : g.names.Perm created.dedup := by
    have hnodup : g.names.Nodup := g.directory.nodup_keys
    refine (List.perm_ext_iff_of_nodup hnodup created.nodup_dedup).2 fun name => ?_
    rw [g.mem_names_iff, h, List.mem_dedup]
  rw [← hperm.length_eq]
  exact (List.length_map _).symm

end Health.Registry

end JobSupervisor
