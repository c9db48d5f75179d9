import FlowMeter.Proofs.Numerals
/-!
# Addresses told apart by their texts

The groups of an address come back from its text although a run of zeros is left out: what is left out lies between the only two
colons that have nothing between them (`Ip.pieces`), and its length follows from the number of groups (`Ip.compress_injective`).
A text with a colon is no dotted one, so no two addresses have the same text (`Ip.text_injective`).
-/
namespace FlowMeter

theorem Mac.text_injective : Function.Injective Mac.text := by
  intro a b h
  have hpairs : Function.Injective fun o : UInt8 => Hex.padded 2 o.toNat :=
    fun _ _ h => UInt8.toNat_inj.1 (Hex.padded_injective 2 h)
  have hsep : ∀ o : UInt8, ':' ∉ Hex.padded 2 o.toNat := fun o => Hex.notMem_padded (by decide) 2 o.toNat
  exact Vector.toList_inj.1 (separated_map_injective hpairs hsep (by simp) (by simp) (String.ofList_injective h))

theorem Ipv4.text_injective : Function.Injective Ipv4.text := by
  intro a b h
  have hsep : ∀ o : UInt8, '.' ∉ Nat.toDigits 10 o.toNat := fun o => notMem_decimal (by decide) o.toNat
  exact Vector.toList_inj.1 (separated_map_injective decimal_octet_injective hsep (by simp) (by simp)
    (String.ofList_injective h))

/-- A dotted text holds digits and dots only. -/
theorem Ipv4.notMem_text {c : Char} (hc : ¬ IsNumeral c) (hdot : c ≠ '.') (a : Ipv4) : c ∉ a.text.toList := by
  intro h
  rw [text, String.toList_ofList] at h
  rcases mem_separated h with h | ⟨item, hitem, h⟩
  · exact hdot h
  · obtain ⟨o, -, rfl⟩ := List.mem_map.1 hitem
    exact notMem_decimal hc _ h

namespace Ip

theorem length_pairs : ∀ s : Octets, (pairs s).length = s.length / 2
  | [] => rfl
  | [_] => by simp [pairs]
  | _ :: _ :: rest => by
    simp only [pairs, List.length_cons, length_pairs rest]
    omega

theorem length_groups (a : Ip) : a.groups.length = 8 := by rw [groups, length_pairs, Vector.length_toList]

theorem pairs_injective : ∀ {s t : Octets}, s.length = t.length → s.length % 2 = 0 → pairs s = pairs t → s = t
  | [], [], _, _, _ => rfl
  | a :: b :: rest, c :: d :: rest', hlength, heven, h => by
    simp only [List.length_cons] at hlength heven
    obtain ⟨hfirst, hrest⟩ := List.cons.inj h
    have hb := b.toNat_lt
    have hd := d.toNat_lt
    obtain rfl : a = c := UInt8.toNat_inj.1 (by omega)
    obtain rfl : b = d := UInt8.toNat_inj.1 (by omega)
    rw [pairs_injective (by omega) (by omega) hrest]

theorem groups_injective : Function.Injective groups := fun a b h =>
  Vector.toList_inj.1 (pairs_injective (by simp) (by simp) h)

theorem replicate_leadingZeros : ∀ gs : List Nat, ∃ rest, gs = List.replicate (leadingZeros gs) 0 ++ rest
  | [] => ⟨[], rfl⟩
  | 0 :: gs => by
    obtain ⟨rest, h⟩ := replicate_leadingZeros gs
    refine ⟨rest, ?_⟩
    rw [leadingZeros, List.replicate_succ, List.cons_append, ← h]
  | (n + 1) :: gs => ⟨(n + 1) :: gs, rfl⟩

/-- **A longest run of zeros holds nothing but zeros.** -/
theorem eq_of_longestFrom : ∀ (gs : List Nat) (position : Nat), ∃ before rest,
    gs = before ++ List.replicate (longestFrom position gs).length 0 ++ rest ∧
      (longestFrom position gs).start = position + before.length
  | [], position => ⟨[], [], rfl, rfl⟩
  | g :: gs, position => by
    rw [longestFrom]
    split
    · obtain ⟨before, rest, h, hstart⟩ := eq_of_longestFrom gs (position + 1)
      refine ⟨g :: before, rest, ?_, ?_⟩
      · rw [List.cons_append, List.cons_append, ← h]
      · rw [hstart, List.length_cons]
        omega
    · obtain ⟨rest, h⟩ := replicate_leadingZeros (g :: gs)
      exact ⟨[], rest, h, rfl⟩

/-- The groups beside the run and the length of the run. -/
theorem eq_of_longestRun (gs : List Nat) :
    gs = gs.take (longestRun gs).start ++ List.replicate (longestRun gs).length 0 ++
      gs.drop ((longestRun gs).start + (longestRun gs).length) := by
  obtain ⟨before, rest, h, hstart⟩ := eq_of_longestFrom gs 0
  rw [longestRun]
  generalize longestFrom 0 gs = run at h hstart ⊢
  rw [Nat.zero_add] at hstart
  have hlength : run.start + run.length = (before ++ List.replicate run.length 0).length := by simp [hstart]
  rw [h, hlength, List.drop_left, hstart, List.append_assoc, List.take_left, List.append_assoc]

/-- The texts of the groups on one side of the run; an empty one stands for no group. -/
def side (gs : List Nat) : List (List Char) := if gs = [] then [[]] else gs.map Hex.digits

theorem side_ne_nil (gs : List Nat) : side gs ≠ [] := by
  unfold side
  split <;> simp [*]

theorem reverse_side (gs : List Nat) : (side gs).reverse = side gs.reverse := by
  unfold side
  by_cases h : gs = [] <;> simp [h]

theorem separated_side (gs : List Nat) : separated ':' (side gs) = separated ':' (gs.map Hex.digits) := by
  unfold side
  split
  · rename_i h
    rw [h]
    rfl
  · rfl

theorem takeWhile_side (gs : List Nat) (behind : List (List Char)) :
    (side gs ++ [] :: behind).takeWhile (· ≠ []) = gs.map Hex.digits := by
  unfold side
  split
  · rename_i h
    rw [h]
    rfl
  · have hall : ∀ item ∈ gs.map Hex.digits, decide (item ≠ []) = true := by
      intro item hitem
      obtain ⟨n, -, rfl⟩ := List.mem_map.1 hitem
      exact decide_eq_true (Hex.digits_ne_nil n)
    rw [List.takeWhile_append_of_pos hall, List.takeWhile_cons_of_neg (by simp), List.append_nil]

/-- One side of the run comes back from what stands before the empty piece. -/
theorem side_injective {gs gs' : List Nat} {behind behind' : List (List Char)}
    (h : side gs ++ [] :: behind = side gs' ++ [] :: behind') : gs = gs' := by
  refine List.map_injective_iff.2 Hex.digits_injective ?_
  rw [← takeWhile_side gs behind, h, takeWhile_side]

/-- What stands between the colons of a text; between the two that stand for the run there is nothing. -/
def pieces (gs : List Nat) : List (List Char) :=
  let run := longestRun gs
  if 2 ≤ run.length then side (gs.take run.start) ++ [] :: side (gs.drop (run.start + run.length)) else gs.map Hex.digits

theorem compress_eq (gs : List Nat) : compress gs = separated ':' (pieces gs) := by
  simp only [compress, pieces]
  split
  · rw [separated_append (side_ne_nil _) (by simp), separated_side, ← List.singleton_append (x := []),
      separated_append (by simp) (side_ne_nil _), separated_side, List.append_assoc]
    rfl
  · rfl

theorem notMem_pieces {c : Char} (hc : ¬ IsNumeral c) {gs : List Nat} {item : List Char} (h : item ∈ pieces gs) : c ∉ item := by
  have hdigits : ∀ {l : List Nat}, item ∈ l.map Hex.digits → c ∉ item := by
    intro l hitem
    obtain ⟨n, -, rfl⟩ := List.mem_map.1 hitem
    exact Hex.notMem_digits hc n
  have hside : ∀ {l : List Nat}, item ∈ side l → c ∉ item := by
    intro l hitem
    unfold side at hitem
    split at hitem
    · simp [List.mem_singleton.1 hitem]
    · exact hdigits hitem
  simp only [pieces] at h
  split at h
  · rcases List.mem_append.1 h with h | h
    · exact hside h
    · rcases List.mem_cons.1 h with rfl | h
      · exact List.not_mem_nil
      · exact hside h
  · exact hdigits h

theorem nil_mem_pieces_iff (gs : List Nat) : [] ∈ pieces gs ↔ 2 ≤ (longestRun gs).length := by
  simp only [pieces]
  split <;> rename_i h
  · simp [h]
  · simp [h, Hex.digits_ne_nil]

theorem two_le_length_pieces {gs : List Nat} (h : 2 ≤ gs.length) : 2 ≤ (pieces gs).length := by
  have hleft := List.length_pos_iff.2 (side_ne_nil (gs.take (longestRun gs).start))
  simp only [pieces]
  split
  · simp only [List.length_append, List.length_cons]
    omega
  · simpa using h

/-- **Nothing is lost when the run is left out**, as long as it is known how many groups there are. -/
theorem pieces_injective {gs gs' : List Nat} (hlength : gs.length = gs'.length) (h : pieces gs = pieces gs') : gs = gs' := by
  have hrun : 2 ≤ (longestRun gs).length ↔ 2 ≤ (longestRun gs').length := by
    rw [← nil_mem_pieces_iff, ← nil_mem_pieces_iff, h]
  simp only [pieces] at h
  by_cases hlong : 2 ≤ (longestRun gs).length
  · rw [if_pos hlong, if_pos (hrun.1 hlong)] at h
    have hleft := side_injective h
    have hreverse := congrArg List.reverse h
    simp only [List.reverse_append, List.reverse_cons, reverse_side, List.append_assoc, List.singleton_append] at hreverse
    have hright := List.reverse_injective (side_injective hreverse)
    have hgs := eq_of_longestRun gs
    have hgs' := eq_of_longestRun gs'
    rw [← hleft, ← hright] at hgs'
    -- the sides agree, so the run takes up what is missing
    have hzeros : (longestRun gs).length = (longestRun gs').length := by
      have hsum := congrArg List.length hgs
      have hsum' := congrArg List.length hgs'
      simp only [List.length_append, List.length_replicate] at hsum hsum'
      omega
    rw [hgs, hgs', hzeros]
  · rw [if_neg hlong, if_neg fun h' => hlong (hrun.2 h')] at h
    exact List.map_injective_iff.2 Hex.digits_injective h

theorem compress_injective {gs gs' : List Nat} (hlength : gs.length = gs'.length) (hlong : 2 ≤ gs.length)
    (h : compress gs = compress gs') : gs = gs' := by
  have hne : ∀ {l : List Nat}, 2 ≤ l.length → pieces l ≠ [] := fun hl =>
    List.length_pos_iff.1 (Nat.lt_of_lt_of_le Nat.zero_lt_two (two_le_length_pieces hl))
  rw [compress_eq, compress_eq] at h
  exact pieces_injective hlength (separated_injective (hne hlong) (hne (hlength ▸ hlong))
    (fun _ => notMem_pieces (by decide)) (fun _ => notMem_pieces (by decide)) h)

/-- A text of groups has a colon, which a dotted text has not. -/
theorem colon_mem_compress {gs : List Nat} (h : 2 ≤ gs.length) : ':' ∈ compress gs := by
  rw [compress_eq]
  have hlength := two_le_length_pieces h
  match hp : pieces gs with
  | [] => simp [hp] at hlength
  | [_] => simp [hp] at hlength
  | item :: next :: rest => exact List.mem_append_right item List.mem_cons_self

theorem notMem_compress {c : Char} (hc : ¬ IsNumeral c) (hcolon : c ≠ ':') (gs : List Nat) : c ∉ compress gs := by
  intro h
  rw [compress_eq] at h
  rcases mem_separated h with h | ⟨item, hitem, h⟩
  · exact hcolon h
  · exact notMem_pieces hc hitem h

theorem text_of_ipv4? {a : Ip} {b : Ipv4} (h : a.ipv4? = some b) : a.text = b.text := by simp only [text, h]

theorem text_of_none {a : Ip} (h : a.ipv4? = none) : a.text = String.ofList (compress a.groups) := by simp only [text, h]

/-- **No two addresses have the same text.** -/
theorem text_injective : Function.Injective text := by
  have hmixed : ∀ {a b : Ip} {c : Ipv4}, a.ipv4? = some c → b.ipv4? = none → a.text ≠ b.text := by
    intro a b c ha hb h
    rw [text_of_ipv4? ha, text_of_none hb] at h
    have hcolon : ':' ∈ compress b.groups := colon_mem_compress (by rw [length_groups]; decide)
    refine c.notMem_text (c := ':') (by decide) (by decide) ?_
    rwa [h, String.toList_ofList]
  intro a b h
  cases ha : a.ipv4? with
  | some c =>
    cases hb : b.ipv4? with
    | some d =>
      rw [text_of_ipv4? ha, text_of_ipv4? hb] at h
      obtain rfl := Ipv4.text_injective h
      rw [(ipv4?_eq_some_iff a c).1 ha, (ipv4?_eq_some_iff b c).1 hb]
    | none => exact absurd h (hmixed ha hb)
  | none =>
    cases hb : b.ipv4? with
    | some d => exact absurd h.symm (hmixed hb ha)
    | none =>
      rw [text_of_none ha, text_of_none hb] at h
      exact groups_injective (compress_injective (by rw [length_groups, length_groups]) (by rw [length_groups]; decide)
        (String.ofList_injective h))

/-- A text of an address holds digits, dots and colons only. -/
theorem notMem_text {c : Char} (hc : ¬ IsNumeral c) (hdot : c ≠ '.') (hcolon : c ≠ ':') (a : Ip) : c ∉ a.text.toList := by
  cases ha : a.ipv4? with
  | some b =>
    rw [text_of_ipv4? ha]
    exact b.notMem_text hc hdot
  | none =>
    rw [text_of_none ha, String.toList_ofList]
    exact notMem_compress hc hcolon _

end Ip
end FlowMeter
