import FlowMeter.Proofs.Totals
/-!
# What a store holds of one flow

`weigh w id s` adds up a measure over the entries of one flow, in a shard, a snapshot or a map of rows alike.  Putting
entries together keeps the weight of every flow as long as the measure adds up over a merge (`weigh_addAll`,
`weigh_ofShards`), and whatever holds of all metrics that come in and survives a merge holds of all that come out.
-/
namespace FlowMeter

theorem getElem?_set_cases {α : Type} {l : List α} {i j : Nat} {a b : α} (h : (l.set i a)[j]? = some b) :
    (i = j ∧ a = b) ∨ (i ≠ j ∧ l[j]? = some b) := by
  by_cases hij : i = j
  · subst hij
    have hlt := (List.getElem?_eq_some_iff.1 h).1
    rw [List.getElem?_set_self (by simpa using hlt)] at h
    exact .inl ⟨rfl, Option.some.inj h⟩
  · exact .inr ⟨hij, (List.getElem?_set_ne hij).symm.trans h⟩

section Sums

variable {M : Type} [AddCommMonoid M]

/-- **More in one place is more in the sum.** -/
theorem sum_set {l : List M} {i : Nat} {a : M} (x : M) (h : l[i]? = some a) : (l.set i (a + x)).sum = l.sum + x := by
  induction l generalizing i with
  | nil => cases h
  | cons b l ih =>
    cases i with
    | zero =>
      obtain rfl : b = a := by simpa using h
      rw [List.set_cons_zero, List.sum_cons, List.sum_cons, add_right_comm]
    | succ i =>
      rw [List.set_cons_succ, List.sum_cons, List.sum_cons, ih (by simpa using h), add_assoc]

end Sums

namespace Flow

variable {M V : Type} [AddCommMonoid M]

/-- The measure of all entries of one flow together. -/
def weigh (w : V → M) (id : Id) (s : List (Id × V)) : M := (s.map fun e => if e.1 = id then w e.2 else 0).sum

/-- The measure adds up when partial views are put together. -/
def Additive (w : Metrics → M) : Prop := ∀ m n, w (m.merge n) = w m + w n

theorem additive_volume : Additive Metrics.volume := Metrics.volume_merge

section

variable (w : V → M) (id : Id)

@[simp] theorem weigh_nil : weigh w id [] = 0 := rfl

@[simp] theorem weigh_cons (e : Id × V) (s : List (Id × V)) :
    weigh w id (e :: s) = (if e.1 = id then w e.2 else 0) + weigh w id s := by
  simp [weigh]

@[simp] theorem weigh_append (s t : List (Id × V)) : weigh w id (s ++ t) = weigh w id s + weigh w id t := by
  simp [weigh]

theorem weigh_flatten : ∀ shards : List (List (Id × V)), weigh w id shards.flatten = (shards.map (weigh w id)).sum
  | [] => rfl
  | s :: rest => by rw [List.flatten_cons, weigh_append, weigh_flatten rest, List.map_cons, List.sum_cons]

end

/-- **A value placed at a key adds what it is more than the old one.** -/
theorem weigh_place {w : V → M} {k : Id} {f : Option V → V} {x : M} (id : Id) :
    ∀ (l : List (Id × V)), (∀ v, Table.find k l = some v → w (f (some v)) = w v + x) → (Table.find k l = none → w (f none) = x) →
      weigh w id (Table.place k f l) = weigh w id l + if k = id then x else 0
  | [], _, hn => by simp [Table.place, hn rfl]
  | e :: l, hs, hn => by
    by_cases he : e.1 = k
    · have hv := hs e.2 (by simp [Table.find, he])
      simp only [Table.place, he, if_true, weigh_cons, hv]
      split
      · rw [add_right_comm]
      · simp
    · have hfind : Table.find k (e :: l) = Table.find k l := by simp [Table.find, he]
      rw [hfind] at hs hn
      simp only [Table.place, he, if_false, weigh_cons, weigh_place id l hs hn, add_assoc]

/-- **What leaves with a key is its value's measure.** -/
theorem weigh_erase {w : V → M} {k : Id} {v : V} (id : Id) : ∀ (l : List (Id × V)), (l.map Prod.fst).Nodup →
    Table.find k l = some v → weigh w id l = weigh w id (l.filter fun e => e.1 != k) + if k = id then w v else 0
  | [], _, h => by cases h
  | e :: l, hn, h => by
    rw [List.map_cons, List.nodup_cons] at hn
    by_cases he : e.1 = k
    · obtain rfl : e.2 = v := by simpa [Table.find, he] using h
      have hkeep : l.filter (fun e => e.1 != k) = l := by
        refine List.filter_eq_self.2 fun a ha => ?_
        have hne : a.1 ≠ k := fun hk => hn.1 (he.trans hk.symm ▸ List.mem_map_of_mem ha)
        simpa using hne
      rw [List.filter_cons_of_neg (by simp [he]), hkeep, weigh_cons, he, add_comm]
    · have hfind : Table.find k l = some v := by simpa [Table.find, he] using h
      rw [List.filter_cons_of_pos (by simpa using he), weigh_cons, weigh_cons, weigh_erase id l hn.2 hfind, add_assoc]

/-- **In a table, the entries of a flow are its one entry.** -/
theorem weigh_of_nodup (w : V → M) (id : Id) : ∀ l : List (Id × V), (l.map Prod.fst).Nodup →
    weigh w id l = ((Table.find id l).map w).getD 0
  | [], _ => rfl
  | e :: l, hn => by
    rw [List.map_cons, List.nodup_cons] at hn
    rw [weigh_cons, weigh_of_nodup w id l hn.2, Table.find]
    by_cases he : e.1 = id
    · have hnone : Table.find id l = none := by
        cases hf : Table.find id l with
        | none => rfl
        | some v => exact absurd (List.mem_map_of_mem (f := Prod.fst) (Table.mem_of_find_eq_some hf)) (he ▸ hn.1)
      rw [if_pos he, if_pos he, hnone]
      exact add_zero _
    · rw [if_neg he, if_neg he, zero_add]

theorem forall_place {P : Id → V → Prop} {k : Id} {f : Option V → V} :
    ∀ (l : List (Id × V)), (∀ e ∈ l, P e.1 e.2) → P k (f (Table.find k l)) → ∀ e ∈ Table.place k f l, P e.1 e.2
  | [], _, hf, e, he => by
    obtain rfl : e = (k, f none) := by simpa [Table.place] using he
    exact hf
  | a :: l, hl, hf, e, he => by
    by_cases ha : a.1 = k
    · simp only [Table.place, ha, if_true, List.mem_cons] at he
      rcases he with rfl | he
      · simpa [Table.find, ha] using hf
      · exact hl e (List.mem_cons_of_mem _ he)
    · simp only [Table.place, ha, if_false, List.mem_cons] at he
      rcases he with rfl | he
      · exact hl e List.mem_cons_self
      · have hf' : P k (f (Table.find k l)) := by simpa [Table.find, ha] using hf
        exact forall_place l (fun b hb => hl b (List.mem_cons_of_mem _ hb)) hf' e he

/-- What holds of partial views of a flow holds of them put together. -/
def Mergeable (P : Id → Metrics → Prop) : Prop := ∀ id m n, P id m → P id n → P id (m.merge n)

namespace Merged

theorem weigh_add {w : Metrics → M} (hw : Additive w) (id k : Id) (t : Merged) (m : Metrics) :
    weigh w id (t.add k m).entries = weigh w id t.entries + if k = id then w m else 0 :=
  weigh_place id t.entries (fun v _ => hw v m) (fun _ => rfl)

theorem weigh_addAll {w : Metrics → M} (hw : Additive w) (id : Id) : ∀ (s : Snapshot) (t : Merged),
    weigh w id (t.addAll s).entries = weigh w id t.entries + weigh w id s
  | [], t => by simp [addAll]
  | e :: s, t => by
    have := weigh_addAll hw id s (t.add e.1 e.2)
    rw [weigh_add hw, add_assoc] at this
    rw [weigh_cons]
    exact this

theorem weigh_foldl_addAll {w : Metrics → M} (hw : Additive w) (id : Id) : ∀ (shards : List Snapshot) (t : Merged),
    weigh w id (shards.foldl addAll t).entries = weigh w id t.entries + weigh w id shards.flatten
  | [], t => by simp
  | s :: rest, t => by
    rw [List.foldl_cons, weigh_foldl_addAll hw id rest, weigh_addAll hw, List.flatten_cons, weigh_append, add_assoc]

/-- **All partial views as one hold what they held together.** -/
theorem weigh_ofShards {w : Metrics → M} (hw : Additive w) (id : Id) (shards : List Snapshot) :
    weigh w id (ofShards shards).entries = weigh w id shards.flatten := by
  rw [ofShards, weigh_foldl_addAll hw]
  exact zero_add _

section

variable {P : Id → Metrics → Prop} (hP : Mergeable P)
include hP

theorem forall_add {t : Merged} (ht : ∀ e ∈ t.entries, P e.1 e.2) (k : Id) {m : Metrics} (hm : P k m) :
    ∀ e ∈ (t.add k m).entries, P e.1 e.2 := by
  refine forall_place t.entries ht ?_
  cases h : Table.find k t.entries with
  | none => exact hm
  | some v => exact hP k v m (ht _ (Table.mem_of_find_eq_some h)) hm

theorem forall_addAll : ∀ (s : Snapshot) {t : Merged}, (∀ e ∈ t.entries, P e.1 e.2) → (∀ e ∈ s, P e.1 e.2) →
    ∀ e ∈ (t.addAll s).entries, P e.1 e.2
  | [], _, ht, _ => ht
  | e :: s, _, ht, hs =>
    forall_addAll s (forall_add hP ht e.1 (hs e List.mem_cons_self)) fun b hb => hs b (List.mem_cons_of_mem _ hb)

theorem forall_foldl_addAll : ∀ (shards : List Snapshot) {t : Merged}, (∀ e ∈ t.entries, P e.1 e.2) →
    (∀ e ∈ shards.flatten, P e.1 e.2) → ∀ e ∈ (shards.foldl addAll t).entries, P e.1 e.2
  | [], _, ht, _ => ht
  | s :: rest, t, ht, hs => by
    rw [List.flatten_cons] at hs
    exact forall_foldl_addAll rest (forall_addAll hP s ht fun e he => hs e (List.mem_append_left _ he))
      fun e he => hs e (List.mem_append_right _ he)

/-- **What holds of all partial views holds of what they are put together to.** -/
theorem forall_ofShards {shards : List Snapshot} (hs : ∀ e ∈ shards.flatten, P e.1 e.2) :
    ∀ e ∈ (ofShards shards).entries, P e.1 e.2 :=
  forall_foldl_addAll hP shards (fun _ h => by cases h) hs

end

end Merged

end Flow
end FlowMeter
