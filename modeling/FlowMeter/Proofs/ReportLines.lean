import FlowMeter.Export.Report
import FlowMeter.Proofs.AddressTexts
/-!
# Lines of exported flows

The line of a flow shows its fields word by word.  No word holds a blank unless the interface's name does, so the words come back
from the line, and every field comes back from its word: two flows have the same line just if they agree in all that a line shows
(`Report.line_eq_iff`).
-/
namespace FlowMeter

theorem repr_injective {m n : Nat} (h : m.repr = n.repr) : m = n := by
  rw [Nat.repr_eq_ofList_toDigits, Nat.repr_eq_ofList_toDigits] at h
  exact decimal_injective (String.ofList_injective h)

theorem labelled_injective {label : String} {m n : Nat} (h : label ++ m.repr = label ++ n.repr) : m = n :=
  repr_injective ((String.append_right_inj label).1 h)

/-- A text and the number behind it come back if a character that is no digit stands between them. -/
theorem numbered_injective {c : Char} (hc : ¬ IsNumeral c) {s t : String} {m n : Nat}
    (h : s ++ String.singleton c ++ m.repr = t ++ String.singleton c ++ n.repr) : s = t ∧ m = n := by
  have hchars := congrArg String.toList h
  simp only [String.toList_append, String.toList_singleton, Nat.repr_eq_ofList_toDigits, String.toList_ofList,
    List.append_assoc, List.singleton_append] at hchars
  obtain ⟨htext, hnumber⟩ := append_cons_injective_right (notMem_decimal hc m) (notMem_decimal hc n) hchars
  exact ⟨String.toList_injective htext, decimal_injective hnumber⟩

/-- No blank stands in a text. -/
def Unbroken (s : String) : Prop := ' ' ∉ s.toList

instance (s : String) : Decidable (Unbroken s) := inferInstanceAs (Decidable (' ' ∉ s.toList))

namespace Unbroken

variable {s t : String}

theorem append (hs : Unbroken s) (ht : Unbroken t) : Unbroken (s ++ t) := by
  rw [Unbroken, String.toList_append, List.mem_append]
  exact fun h => h.elim hs ht

theorem ofList {l : List Char} (h : ' ' ∉ l) : Unbroken (String.ofList l) := by rwa [Unbroken, String.toList_ofList]

theorem decimal (n : Nat) : Unbroken n.repr := by
  rw [Nat.repr_eq_ofList_toDigits]
  exact ofList (notMem_decimal (by decide) n)

theorem mac (a : Mac) : Unbroken a.text := by
  refine ofList fun h => ?_
  rcases mem_separated h with h | ⟨item, hitem, h⟩
  · cases h
  · obtain ⟨o, -, rfl⟩ := List.mem_map.1 hitem
    exact Hex.notMem_padded (by decide) 2 o.toNat h

theorem ip (a : Ip) : Unbroken a.text := a.notMem_text (by decide) (by decide) (by decide)

end Unbroken

/-- Words come back from a line if no blank stands in them. -/
theorem words_injective {words words' : List String} (hne : words ≠ []) (hne' : words' ≠ [])
    (hwords : ∀ w ∈ words, Unbroken w) (hwords' : ∀ w ∈ words', Unbroken w)
    (h : " ".intercalate words = " ".intercalate words') : words = words' := by
  have hchars := congrArg String.toList h
  rw [String.toList_intercalate, String.toList_intercalate] at hchars
  have hfree : ∀ {words : List String}, (∀ w ∈ words, Unbroken w) → ∀ l ∈ words.map String.toList, ' ' ∉ l := by
    intro words hwords l hl
    obtain ⟨w, hw, rfl⟩ := List.mem_map.1 hl
    exact hwords w hw
  have hsplit := congrArg (List.splitOn ' ') hchars
  rw [show " ".toList = [' '] by decide, List.splitOn_intercalate ' ' (hfree hwords) (by simpa using hne),
    List.splitOn_intercalate ' ' (hfree hwords') (by simpa using hne')] at hsplit
  exact List.map_injective_iff.2 (fun _ _ => String.toList_injective) hsplit

namespace Export.Report

theorem directionName_eq_iff (a b : UInt8) : directionName a = directionName b ↔ Direction.ofCode? a = Direction.ofCode? b := by
  unfold directionName
  cases Direction.ofCode? a with
  | none =>
    cases Direction.ofCode? b with
    | none => exact ⟨fun _ => rfl, fun _ => rfl⟩
    | some d => cases d <;> decide
  | some c =>
    cases Direction.ofCode? b with
    | none => cases c <;> decide
    | some d => cases c <;> cases d <;> decide

theorem endpoint_injective {a b : Ip} {m n : UInt16} (h : endpoint a m = endpoint b n) : a = b ∧ m = n := by
  obtain ⟨htext, hport⟩ := numbered_injective (c := ':') (by decide) (m := m.toNat) (n := n.toNat) h
  exact ⟨Ip.text_injective htext, UInt16.toNat_inj.1 hport⟩

theorem unbroken_directionName (code : UInt8) : Unbroken (directionName code) := by
  unfold directionName
  cases Direction.ofCode? code with
  | none => decide
  | some d => cases d <;> decide

theorem unbroken_endpoint (a : Ip) (port : UInt16) : Unbroken (endpoint a port) :=
  ((Unbroken.ip a).append (by decide)).append (.decimal port.toNat)

/-- A label with a number behind it. -/
theorem unbroken_numbered {label : String} (h : Unbroken label) (n : Nat) : Unbroken (label ++ n.repr) := h.append (.decimal n)

variable {r r' : Report}

theorem unbroken_fixedWords (h : Unbroken r.interface) : ∀ w ∈ r.fixedWords, Unbroken w := by
  simp only [fixedWords, List.forall_mem_cons, List.not_mem_nil, false_imp_iff, implies_true, and_true]
  refine ⟨.decimal _, unbroken_directionName _, unbroken_numbered (by decide) _, unbroken_endpoint _ _, by decide,
    unbroken_endpoint _ _, ?_, .append (by decide) (.mac _), by decide, .mac _, unbroken_numbered (by decide) _,
    unbroken_numbered (by decide) _, ?_, ?_⟩
  · have hname : Unbroken ("if=" ++ r.interface ++ "(") := (.append (.append (by decide) h) (by decide))
    exact (hname.append (.decimal _)).append (by decide)
  · exact (unbroken_numbered (by decide) _).append (by decide)
  · have hflags : ' ' ∉ Hex.padded 3 r.metrics.flags.toNat := Hex.notMem_padded (by decide) 3 _
    exact .append (by decide) (.ofList hflags)

theorem unbroken_extraWords (r : Report) : ∀ w ∈ r.extraWords, Unbroken w := by
  intro w hw
  simp only [extraWords, List.mem_append, List.mem_ite_nil_right, List.mem_singleton] at hw
  rcases hw with (⟨-, rfl⟩ | ⟨-, rfl⟩) | ⟨-, rfl⟩
  · exact ((unbroken_numbered (by decide) _).append (by decide)).append (.decimal _)
  · exact unbroken_numbered (by decide) _
  · decide

/-- Two flows agree in all that a line shows. -/
structure Agrees (r r' : Report) : Prop where
  start : r.start.epochMillis = r'.start.epochMillis
  direction : Direction.ofCode? r.id.direction = Direction.ofCode? r'.id.direction
  protocol : r.id.protocol = r'.id.protocol
  srcIp : r.id.srcIp = r'.id.srcIp
  srcPort : r.id.srcPort = r'.id.srcPort
  dstIp : r.id.dstIp = r'.id.dstIp
  dstPort : r.id.dstPort = r'.id.dstPort
  interface : r.interface = r'.interface
  interfaceIndex : r.id.interface = r'.id.interface
  srcMac : r.id.srcMac = r'.id.srcMac
  dstMac : r.id.dstMac = r'.id.dstMac
  packets : r.metrics.packets = r'.metrics.packets
  bytes : r.metrics.bytes = r'.metrics.bytes
  duration : durationMillis r.metrics = durationMillis r'.metrics
  flags : r.metrics.flags = r'.metrics.flags
  icmpType : r.id.icmpType = r'.id.icmpType
  icmpCode : r.id.icmpCode = r'.id.icmpCode
  errno : r.metrics.errno = r'.metrics.errno
  duplicate : r.duplicate = r'.duplicate

/-- A word that is there only sometimes, and is no later one. -/
theorem optional_injective {p p' : Prop} [Decidable p] [Decidable p'] {w w' : String} {rest rest' : List String}
    (hw : w ∉ rest') (hw' : w' ∉ rest) (h : (if p then [w] else []) ++ rest = (if p' then [w'] else []) ++ rest') :
    (p ↔ p') ∧ (p → w = w') ∧ rest = rest' := by
  by_cases hp : p <;> by_cases hp' : p'
  · rw [if_pos hp, if_pos hp'] at h
    obtain ⟨hword, hrest⟩ := List.cons.inj h
    exact ⟨iff_of_true hp hp', fun _ => hword, hrest⟩
  · rw [if_pos hp, if_neg hp'] at h
    exact absurd (show w ∈ [] ++ rest' from h ▸ List.mem_cons_self) hw
  · rw [if_neg hp, if_pos hp'] at h
    exact absurd (show w' ∈ [] ++ rest from h ▸ List.mem_cons_self) hw'
  · rw [if_neg hp, if_neg hp'] at h
    exact ⟨iff_of_false hp hp', fun h => absurd h hp, h⟩

theorem icmp_injective {a b c d : UInt8} (h : s!"icmp={a}/{b}" = s!"icmp={c}/{d}") : a = c ∧ b = d := by
  obtain ⟨htype, hcode⟩ := numbered_injective (c := '/') (by decide) (m := b.toNat) (n := d.toNat) h
  exact ⟨UInt8.toNat_inj.1 (labelled_injective htype), UInt8.toNat_inj.1 hcode⟩

/-- The extra words begin differently. -/
theorem icmp_ne (a b n : UInt8) : s!"icmp={a}/{b}" ≠ s!"errno={n}" ∧ s!"icmp={a}/{b}" ≠ "duplicate" ∧
    s!"errno={n}" ≠ "duplicate" := by
  have hhead : ∀ {s t : String}, s.toList.head? ≠ t.toList.head? → s ≠ t := fun h hst => h (hst ▸ rfl)
  have hplain : ∀ s : String, toString s = s := fun _ => rfl
  refine ⟨hhead ?_, hhead ?_, hhead ?_⟩ <;> simp [hplain]

/-- **What the extra words show comes back from them.** -/
theorem extraWords_injective (h : r.extraWords = r'.extraWords) :
    (r.id.icmpType = r'.id.icmpType ∧ r.id.icmpCode = r'.id.icmpCode) ∧ r.metrics.errno = r'.metrics.errno ∧
      r.duplicate = r'.duplicate := by
  have hlater : ∀ r q : Report, s!"icmp={r.id.icmpType}/{r.id.icmpCode}" ∉
      (if q.metrics.errno ≠ 0 then [s!"errno={q.metrics.errno}"] else []) ++ (if q.duplicate then ["duplicate"] else []) := by
    intro r q hmem
    obtain ⟨herrno, hduplicate, -⟩ := icmp_ne r.id.icmpType r.id.icmpCode q.metrics.errno
    simp only [List.mem_append, List.mem_ite_nil_right, List.mem_singleton] at hmem
    exact hmem.elim (fun h => herrno h.2) fun h => hduplicate h.2
  have hlast : ∀ r q : Report, s!"errno={r.metrics.errno}" ∉ if q.duplicate then ["duplicate"] else [] := by
    intro r q hmem
    simp only [List.mem_ite_nil_right, List.mem_singleton] at hmem
    exact (icmp_ne 0 0 r.metrics.errno).2.2 hmem.2
  unfold extraWords at h
  rw [List.append_assoc, List.append_assoc] at h
  obtain ⟨hshown, hicmp, h⟩ := optional_injective (hlater r r') (hlater r' r) h
  obtain ⟨hfailed, herrno, h⟩ := optional_injective (hlast r r') (hlast r' r) h
  refine ⟨?_, ?_, ?_⟩
  · by_cases hp : r.id.icmpType ≠ 0 ∨ r.id.icmpCode ≠ 0
    · exact icmp_injective (hicmp hp)
    · have hp' := mt hshown.2 hp
      simp only [not_or, ne_eq, not_not] at hp hp'
      rw [hp.1, hp.2, hp'.1, hp'.2]
      exact ⟨rfl, rfl⟩
  · by_cases hp : r.metrics.errno = 0
    · rw [hp, not_not.1 (mt hfailed.2 (not_not.2 hp))]
    · exact UInt8.toNat_inj.1 (labelled_injective (herrno hp))
  · cases hd : r.duplicate <;> cases hd' : r'.duplicate <;> simp [hd, hd'] at h ⊢

theorem agrees_of_line (hr : Unbroken r.interface) (hr' : Unbroken r'.interface) (h : r.line = r'.line) : r.Agrees r' := by
  have hunbroken : ∀ {r : Report}, Unbroken r.interface → ∀ w ∈ r.fixedWords ++ r.extraWords, Unbroken w :=
    fun hr w hw => (List.mem_append.1 hw).elim (unbroken_fixedWords hr w) (unbroken_extraWords _ w)
  have hwords := words_injective (by simp [fixedWords]) (by simp [fixedWords]) (hunbroken hr) (hunbroken hr') h
  obtain ⟨hfixed, hextra⟩ := List.append_inj hwords rfl
  simp only [fixedWords, List.cons.injEq, and_true, true_and] at hfixed
  obtain ⟨hstart, hdirection, hprotocol, hsrc, hdst, hinterface, hsrcMac, hdstMac, hpackets, hbytes, hduration, hflags⟩ := hfixed
  obtain ⟨hsrcIp, hsrcPort⟩ := endpoint_injective hsrc
  obtain ⟨hdstIp, hdstPort⟩ := endpoint_injective hdst
  obtain ⟨⟨hicmpType, hicmpCode⟩, herrno, hduplicate⟩ := extraWords_injective hextra
  obtain ⟨hname, hindex⟩ := numbered_injective (c := '(') (by decide) (m := r.id.interface.toNat)
    (n := r'.id.interface.toNat) ((String.append_left_inj ")").1 hinterface)
  exact {
    start := repr_injective hstart
    direction := (directionName_eq_iff _ _).1 hdirection
    protocol := UInt8.toNat_inj.1 (labelled_injective hprotocol)
    srcIp := hsrcIp
    srcPort := hsrcPort
    dstIp := hdstIp
    dstPort := hdstPort
    interface := (String.append_right_inj "if=").1 hname
    interfaceIndex := UInt32.toNat_inj.1 hindex
    srcMac := Mac.text_injective ((String.append_right_inj "mac=").1 hsrcMac)
    dstMac := Mac.text_injective hdstMac
    packets := UInt32.toNat_inj.1 (labelled_injective hpackets)
    bytes := UInt64.toNat_inj.1 (labelled_injective hbytes)
    duration := labelled_injective ((String.append_left_inj "ms").1 hduration)
    flags := UInt16.toNat_inj.1 (Hex.padded_injective 3 (String.ofList_injective ((String.append_right_inj _).1 hflags)))
    icmpType := hicmpType
    icmpCode := hicmpCode
    errno := herrno
    duplicate := hduplicate }

/-- **A line is unambiguous.**  Two flows whose interfaces have names without blanks are shown by the same line just if they agree
in all that it shows. -/
theorem line_eq_iff (hr : Unbroken r.interface) (hr' : Unbroken r'.interface) : r.line = r'.line ↔ r.Agrees r' := by
  refine ⟨agrees_of_line hr hr', fun h => ?_⟩
  have hdirection := (directionName_eq_iff _ _).2 h.direction
  have hfixed : r.fixedWords = r'.fixedWords := by
    simp only [fixedWords, h.start, hdirection, h.protocol, h.srcIp, h.srcPort, h.dstIp, h.dstPort, h.interface,
      h.interfaceIndex, h.srcMac, h.dstMac, h.packets, h.bytes, h.duration, h.flags]
  have hextra : r.extraWords = r'.extraWords := by
    simp only [extraWords, h.icmpType, h.icmpCode, h.errno, h.duplicate]
  rw [line, hfixed, hextra, line]

/-- Two flows that differ in the type of their frames, in a direction that has no name, in the times of their packets and before
the epoch have the same line. -/
theorem line_eq_iff_unnamed_direction :
    let ip : Ip := #v[0x20, 1, 0, 0, 0, 0, 0, 1, 0, 0, 0, 0, 0, 0, 0, 9]
    let r : Report :=
      { id := { etherType := 1, direction := 7, srcIp := ip, dstIp := .ofIpv4 #v[10, 0, 0, 2], srcPort := 53, icmpCode := 3 }
        metrics := { packets := 2, bytes := 99, start := 5, stop := 3000004, flags := 0x12, errno := 7 }
        interface := "eth0(2)", duplicate := true, start := { secs := -3 }, stop := { secs := 4 } }
    let r' : Report :=
      { r with
        id := { r.id with etherType := 2, direction := 9 }
        metrics := { r.metrics with start := 8, stop := 2000008, handshake := 6 }
        start := { secs := 0, nanos := 999999 } }
    (Unbroken r.interface ∧ Unbroken r'.interface) ∧ r ≠ r' ∧ r.line = r'.line ∧ r.Agrees r' := by
  intro ip r r'
  have hr : Unbroken r.interface := by decide
  have hr' : Unbroken r'.interface := by decide
  have hne : r ≠ r' := by decide
  have hline : r.line = r'.line := by decide +kernel
  exact ⟨⟨hr, hr'⟩, hne, hline, (line_eq_iff hr hr').1 hline⟩

end Export.Report
end FlowMeter
