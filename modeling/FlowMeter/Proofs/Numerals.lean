import FlowMeter.Text.Address
import Mathlib.Data.List.Basic
/-!
# Numbers and lists as text

The text of a number says which number it is, in decimal digits or in padded hexadecimal ones (`Hex.padded_injective`), and
what stands between separators can be told apart if the separator stands nowhere else (`separated_injective`).
-/
namespace FlowMeter

/-- A digit of some base up to sixteen. -/
def IsNumeral (c : Char) : Prop := ∃ d < 16, c = Nat.digitChar d

instance (c : Char) : Decidable (IsNumeral c) := inferInstanceAs (Decidable (∃ d < 16, c = Nat.digitChar d))

theorem isNumeral_of_mem_toDigits {b : Nat} (hb : 1 < b) (hb' : b ≤ 16) {c : Char} (n : Nat) (h : c ∈ Nat.toDigits b n) :
    IsNumeral c := by
  induction n using Nat.strongRecOn with
  | ind n ih =>
    rw [Nat.toDigits_eq_if hb] at h
    split at h
    · exact ⟨n, by omega, List.mem_singleton.1 h⟩
    · rcases List.mem_append.1 h with h | h
      · exact ih (n / b) (Nat.div_lt_self (by omega) hb) h
      · have := Nat.mod_lt n (Nat.zero_lt_of_lt hb)
        exact ⟨n % b, by omega, List.mem_singleton.1 h⟩

/-- A character that is no digit stands in no decimal number. -/
theorem notMem_decimal {c : Char} (hc : ¬ IsNumeral c) (n : Nat) : c ∉ Nat.toDigits 10 n :=
  fun h => hc (isNumeral_of_mem_toDigits (by decide) (by decide) n h)

theorem decimal_injective {m n : Nat} (h : Nat.toDigits 10 m = Nat.toDigits 10 n) : m = n := by
  rw [← Nat.ofDigitChars_ten_toDigits (n := m), h, Nat.ofDigitChars_ten_toDigits]

theorem decimal_octet_injective : Function.Injective fun b : UInt8 => Nat.toDigits 10 b.toNat :=
  fun _ _ h => UInt8.toNat_inj.1 (decimal_injective h)

namespace Hex

/-- The number that digits show, from what stands before them on. -/
def value (before : Nat) (digits : List Char) : Nat := digits.foldl (fun n c => 16 * n + (digit? c).getD 0) before

theorem digit?_digitChar : ∀ d < 16, digit? (Nat.digitChar d) = some d := by decide

theorem value_digits (n : Nat) : value 0 (digits n) = n := by
  induction n using Nat.strongRecOn with
  | ind n ih =>
    rw [digits, Nat.toDigits_eq_if (by decide)]
    split
    · rename_i hn
      simp [value, digit?_digitChar n hn]
    · have hlow : n % 16 < 16 := Nat.mod_lt _ (by decide)
      have hhigh : value 0 (Nat.toDigits 16 (n / 16)) = n / 16 := ih (n / 16) (Nat.div_lt_self (by omega) (by decide))
      rw [value] at hhigh ⊢
      rw [List.foldl_append, hhigh, List.foldl_cons, List.foldl_nil, digit?_digitChar _ hlow, Option.getD_some]
      omega

theorem value_replicate : ∀ k : Nat, value 0 (List.replicate k '0') = 0
  | 0 => rfl
  | k + 1 => value_replicate k

/-- **Zeros in front do not change the number.** -/
theorem value_padded (width n : Nat) : value 0 (padded width n) = n := by
  have hzeros := value_replicate (width - (digits n).length)
  have hdigits := value_digits n
  rw [value] at hzeros hdigits ⊢
  rw [padded, List.foldl_append, hzeros, hdigits]

theorem digits_injective : Function.Injective digits := fun m n h => by rw [← value_digits m, h, value_digits]

theorem padded_injective (width : Nat) : Function.Injective (padded width) := fun m n h => by
  rw [← value_padded width m, h, value_padded]

theorem digits_ne_nil (n : Nat) : digits n ≠ [] := Nat.toDigits_ne_nil

theorem notMem_digits {c : Char} (hc : ¬ IsNumeral c) (n : Nat) : c ∉ digits n :=
  fun h => hc (isNumeral_of_mem_toDigits (by decide) (by decide) n h)

theorem notMem_padded {c : Char} (hc : ¬ IsNumeral c) (width n : Nat) : c ∉ padded width n := by
  intro h
  rcases List.mem_append.1 h with h | h
  · rw [List.eq_of_mem_replicate h] at hc
    exact hc (by decide)
  · exact notMem_digits hc n h

end Hex

/-- What stands before a character and what stands behind it, if it does not stand before. -/
theorem append_cons_injective {α : Type} [DecidableEq α] {c : α} {x x' y y' : List α} (hx : c ∉ x) (hx' : c ∉ x')
    (h : x ++ c :: y = x' ++ c :: y') : x = x' ∧ y = y' := by
  have hbefore : ∀ {x y : List α}, c ∉ x → (x ++ c :: y).takeWhile (· ≠ c) = x := by
    intro x y hx
    have hall : ∀ a ∈ x, decide (a ≠ c) = true := fun a ha => decide_eq_true fun hac => hx (hac ▸ ha)
    rw [List.takeWhile_append_of_pos hall, List.takeWhile_cons_of_neg (by simp), List.append_nil]
  obtain rfl : x = x' := by rw [← hbefore (y := y) hx, h, hbefore hx']
  exact ⟨rfl, (List.cons.inj (List.append_cancel_left h)).2⟩

/-- The same if it does not stand behind. -/
theorem append_cons_injective_right {α : Type} [DecidableEq α] {c : α} {x x' y y' : List α} (hy : c ∉ y) (hy' : c ∉ y')
    (h : x ++ c :: y = x' ++ c :: y') : x = x' ∧ y = y' := by
  have hreverse := congrArg List.reverse h
  simp only [List.reverse_append, List.reverse_cons, List.append_assoc, List.singleton_append] at hreverse
  obtain ⟨hbehind, hbefore⟩ := append_cons_injective (by simpa using hy) (by simpa using hy') hreverse
  exact ⟨List.reverse_injective hbefore, List.reverse_injective hbehind⟩

variable {sep : Char}

theorem separated_eq_intercalate (sep : Char) : ∀ items : List (List Char), separated sep items = [sep].intercalate items
  | [] => List.intercalate_nil.symm
  | [_] => List.intercalate_singleton.symm
  | item :: next :: rest => by
    rw [separated, separated_eq_intercalate sep (next :: rest), List.intercalate_cons_cons, List.append_assoc,
      List.singleton_append]
    exact fun h => by cases h

/-- **What stands between separators.** -/
theorem separated_injective {items items' : List (List Char)} (hne : items ≠ []) (hne' : items' ≠ [])
    (hsep : ∀ item ∈ items, sep ∉ item) (hsep' : ∀ item ∈ items', sep ∉ item)
    (h : separated sep items = separated sep items') : items = items' := by
  rw [separated_eq_intercalate, separated_eq_intercalate] at h
  rw [← List.splitOn_intercalate sep hsep hne, h, List.splitOn_intercalate sep hsep' hne']

theorem separated_map_injective {α : Type} {f : α → List Char} (hf : Function.Injective f) (hsep : ∀ a, sep ∉ f a)
    {l l' : List α} (hne : l ≠ []) (hne' : l' ≠ []) (h : separated sep (l.map f) = separated sep (l'.map f)) : l = l' := by
  have hfree : ∀ (l : List α), ∀ item ∈ l.map f, sep ∉ item := by
    intro l item hitem
    obtain ⟨a, -, rfl⟩ := List.mem_map.1 hitem
    exact hsep a
  exact List.map_injective_iff.2 hf (separated_injective (by simpa using hne) (by simpa using hne') (hfree l) (hfree l') h)

theorem separated_append : ∀ {items items' : List (List Char)}, items ≠ [] → items' ≠ [] →
    separated sep (items ++ items') = separated sep items ++ sep :: separated sep items'
  | [], _, h, _ => absurd rfl h
  | [item], items', _, h' => by
    cases items' with
    | nil => exact absurd rfl h'
    | cons item' rest => rfl
  | item :: next :: rest, items', _, h' => by
    have hrest := separated_append (List.cons_ne_nil next rest) h'
    show item ++ sep :: separated sep (next :: rest ++ items') = item ++ sep :: separated sep (next :: rest) ++ _
    rw [hrest, List.append_assoc, List.cons_append]

/-- A character of such a text is the separator or stands in an item. -/
theorem mem_separated {c : Char} : ∀ {items : List (List Char)}, c ∈ separated sep items → c = sep ∨ ∃ item ∈ items, c ∈ item
  | [], h => by cases h
  | [item], h => .inr ⟨item, List.mem_singleton_self item, h⟩
  | item :: next :: rest, h => by
    have h : c ∈ item ++ sep :: separated sep (next :: rest) := h
    rcases List.mem_append.1 h with h | h
    · exact .inr ⟨item, List.mem_cons_self, h⟩
    · rcases List.mem_cons.1 h with h | h
      · exact .inl h
      · exact (mem_separated h).imp_right fun ⟨item', hmem, hc⟩ => ⟨item', List.mem_cons_of_mem _ hmem, hc⟩

end FlowMeter
