/-!
# Tables

A finite map that keeps its entries in the order in which their keys came, each key once.  `Table.upsert` puts a new value
at a key, computed from the old one.  Main lemmas: `Table.get?_upsert`, `Table.keys_upsert`, `Table.get?_eq_some_iff`.
-/
namespace FlowMeter

/-- Entries in order of insertion, with distinct keys. -/
structure Table (κ ν : Type) where
  entries : List (κ × ν) := []
  distinct : (entries.map Prod.fst).Nodup := by simp

namespace Table

variable {κ ν : Type}

instance : Inhabited (Table κ ν) := ⟨⟨[], List.nodup_nil⟩⟩
instance : EmptyCollection (Table κ ν) := ⟨⟨[], List.nodup_nil⟩⟩

def keys (t : Table κ ν) : List κ := t.entries.map Prod.fst

def size (t : Table κ ν) : Nat := t.entries.length

@[ext] theorem ext {s t : Table κ ν} (h : s.entries = t.entries) : s = t := by
  cases s; cases t; cases h; rfl

@[simp] theorem length_keys (t : Table κ ν) : t.keys.length = t.size := by simp [keys, size]

theorem nodup_keys (t : Table κ ν) : t.keys.Nodup := t.distinct

def filter (t : Table κ ν) (keep : κ → ν → Bool) : Table κ ν where
  entries := t.entries.filter fun e => keep e.1 e.2
  distinct := (List.filter_sublist.map Prod.fst).nodup t.distinct

variable [DecidableEq κ]

/-- The value at the first entry of the key. -/
def find (k : κ) : List (κ × ν) → Option ν
  | [] => none
  | e :: rest => if e.1 = k then some e.2 else find k rest

/-- The entries with the value at the key replaced, or with the key added at the end. -/
def place (k : κ) (f : Option ν → ν) : List (κ × ν) → List (κ × ν)
  | [] => [(k, f none)]
  | e :: rest => if e.1 = k then (k, f (some e.2)) :: rest else e :: place k f rest

theorem map_fst_place (k : κ) (f : Option ν → ν) :
    ∀ l : List (κ × ν), (place k f l).map Prod.fst =
      if k ∈ l.map Prod.fst then l.map Prod.fst else l.map Prod.fst ++ [k]
  | [] => rfl
  | e :: rest => by
    by_cases h : e.1 = k
    · simp [place, h]
    · simp only [place, h, if_false, List.map_cons, map_fst_place k f rest, List.mem_cons, Ne.symm h, false_or]
      split <;> simp [*]

theorem nodup_place (k : κ) (f : Option ν → ν) (l : List (κ × ν)) (h : (l.map Prod.fst).Nodup) :
    ((place k f l).map Prod.fst).Nodup := by
  rw [map_fst_place]
  split
  · exact h
  · rename_i hk
    rw [List.nodup_append]
    exact ⟨h, by simp, by rintro a ha b hb rfl; simp at hb; exact hk (hb ▸ ha)⟩

def get? (t : Table κ ν) (k : κ) : Option ν := find k t.entries

def contains (t : Table κ ν) (k : κ) : Bool := (t.get? k).isSome

/-- A new value at the key, from the old one if there is any. -/
def upsert (t : Table κ ν) (k : κ) (f : Option ν → ν) : Table κ ν where
  entries := place k f t.entries
  distinct := nodup_place k f t.entries t.distinct

/-- The value at the key, whatever was there. -/
def insert (t : Table κ ν) (k : κ) (v : ν) : Table κ ν := t.upsert k fun _ => v

def erase (t : Table κ ν) (k : κ) : Table κ ν := t.filter fun k' _ => k' != k

theorem find_place (k k' : κ) (f : Option ν → ν) :
    ∀ l : List (κ × ν), find k' (place k f l) = if k' = k then some (f (find k l)) else find k' l
  | [] => by
    by_cases h : k = k'
    · subst h; simp [place, find]
    · simp [place, find, h, Ne.symm h]
  | e :: rest => by
    by_cases h : e.1 = k
    · by_cases h' : k' = k
      · subst h'; simp [place, find, h]
      · have h2 : ¬ k = k' := Ne.symm h'
        simp [place, find, h, h', h2]
    · by_cases h' : k' = k
      · subst h'; simp [place, find, h, find_place]
      · simp [place, find, h, h', find_place]

/-- **A new value at one key leaves the others alone.** -/
theorem get?_upsert (t : Table κ ν) (k k' : κ) (f : Option ν → ν) :
    (t.upsert k f).get? k' = if k' = k then some (f (t.get? k)) else t.get? k' :=
  find_place k k' f t.entries

theorem keys_upsert (t : Table κ ν) (k : κ) (f : Option ν → ν) :
    (t.upsert k f).keys = if k ∈ t.keys then t.keys else t.keys ++ [k] :=
  map_fst_place k f t.entries

theorem find_eq_some_of_mem {k : κ} {v : ν} : ∀ {l : List (κ × ν)}, (l.map Prod.fst).Nodup → (k, v) ∈ l →
    find k l = some v
  | e :: rest, hn, hm => by
    rw [List.map_cons, List.nodup_cons] at hn
    rcases List.mem_cons.1 hm with rfl | hm
    · simp [find]
    · have hk : e.1 ≠ k := by
        intro h
        exact hn.1 (h ▸ List.mem_map_of_mem (f := Prod.fst) hm)
      simp [find, hk, find_eq_some_of_mem hn.2 hm]

theorem mem_of_find_eq_some {k : κ} {v : ν} : ∀ {l : List (κ × ν)}, find k l = some v → (k, v) ∈ l
  | e :: rest, h => by
    by_cases he : e.1 = k
    · simp only [find, he, if_true, Option.some.injEq] at h
      subst he; subst h
      simp
    · simp only [find, he, if_false] at h
      exact List.mem_cons_of_mem _ (mem_of_find_eq_some h)

/-- **Looking a key up finds its entry.** -/
theorem get?_eq_some_iff (t : Table κ ν) (k : κ) (v : ν) : t.get? k = some v ↔ (k, v) ∈ t.entries :=
  ⟨mem_of_find_eq_some, find_eq_some_of_mem t.distinct⟩

theorem get?_eq_none_iff (t : Table κ ν) (k : κ) : t.get? k = none ↔ k ∉ t.keys := by
  constructor
  · intro h hk
    obtain ⟨⟨k', v⟩, hm, rfl⟩ := List.mem_map.1 hk
    rw [(get?_eq_some_iff t k' v).2 hm] at h
    cases h
  · intro h
    cases hg : t.get? k with
    | none => rfl
    | some v => exact absurd (List.mem_map_of_mem (f := Prod.fst) ((get?_eq_some_iff t k v).1 hg)) h

theorem find_filter_ne (k k' : κ) : ∀ l : List (κ × ν),
    find k' (l.filter fun e => e.1 != k) = if k' = k then none else find k' l
  | [] => by simp [find]
  | e :: rest => by
    by_cases h : e.1 = k
    · have hdrop : ((e :: rest).filter fun e => e.1 != k) = rest.filter fun e => e.1 != k :=
        List.filter_cons_of_neg (by simp [h])
      rw [hdrop, find_filter_ne k k' rest]
      by_cases h' : k' = k
      · rw [if_pos h', if_pos h']
      · rw [if_neg h', if_neg h', find, if_neg fun he => h' (he.symm.trans h)]
    · have hkeep : ((e :: rest).filter fun e => e.1 != k) = e :: rest.filter fun e => e.1 != k :=
        List.filter_cons_of_pos (by simpa using h)
      rw [hkeep, find, find, find_filter_ne k k' rest]
      by_cases h' : e.1 = k'
      · rw [if_pos h', if_pos h', if_neg (h' ▸ h)]
      · rw [if_neg h', if_neg h']

/-- **A key that is gone takes only its own value along.** -/
theorem get?_erase (t : Table κ ν) (k k' : κ) : (t.erase k).get? k' = if k' = k then none else t.get? k' :=
  find_filter_ne k k' t.entries

theorem place_place (k : κ) (f g : Option ν → ν) : ∀ l : List (κ × ν),
    place k g (place k f l) = place k (fun old => g (some (f old))) l
  | [] => by simp [place]
  | e :: rest => by
    by_cases h : e.1 = k
    · simp [place, h]
    · simp [place, h, place_place k f g rest]

/-- Of two new values at a key, the second one is computed from the first. -/
theorem upsert_upsert (t : Table κ ν) (k : κ) (f g : Option ν → ν) :
    (t.upsert k f).upsert k g = t.upsert k fun old => g (some (f old)) :=
  ext (place_place k f g t.entries)

theorem size_upsert (t : Table κ ν) (k : κ) (f : Option ν → ν) :
    (t.upsert k f).size = if t.contains k then t.size else t.size + 1 := by
  rw [← length_keys, keys_upsert, contains]
  cases h : t.get? k with
  | none =>
    rw [if_neg ((get?_eq_none_iff t k).1 h)]
    simp
  | some v =>
    have hk : k ∈ t.keys := Classical.byContradiction fun hk => by
      rw [(get?_eq_none_iff t k).2 hk] at h
      cases h
    rw [if_pos hk]
    simp

end Table
end FlowMeter
