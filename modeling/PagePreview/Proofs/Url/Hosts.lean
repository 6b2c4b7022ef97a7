import PagePreview.Proofs.Url.HostNumbers
import PagePreview.Proofs.Url.Paths

/-!
# Hosts are read back

A host that was read is written as a text that is read as the same host, by
the common schemes (`specialHost_chars`) and by all others
(`plainHost_chars`).  `HostText` says which characters that text may have, so
that the parts of an address around it can be told apart from it.
-/

namespace PagePreview.Url

open Text

/-- A character of a host outside brackets. -/
def isHostChar (c : Char) : Bool := 0x20 < c.toNat && !isForbiddenInHost c

/-- The text of a host: something in brackets, which may have colons, or none of the characters
that stand for something else. -/
inductive HostText : List Char → Prop
  | plain {cs : List Char} (h : ∀ c ∈ cs, isHostChar c = true) : HostText cs
  | brackets {cs : List Char} (h : ∀ c ∈ cs, isHostChar c = true ∨ c = ':') :
      HostText ('[' :: cs ++ [']'])

/-! ## The texts of hosts -/

theorem HostText.of_mem {cs : List Char} (h : HostText cs) {c : Char} (hMem : c ∈ cs) :
    isHostChar c = true ∨ c = ':' ∨ c = '[' ∨ c = ']' := by
  cases h with
  | plain hPlain => exact Or.inl (hPlain c hMem)
  | brackets hInside =>
      simp only [List.cons_append, List.mem_cons, List.mem_append, List.not_mem_nil, or_false]
        at hMem
      obtain rfl | hMem | rfl := hMem
      · simp
      · obtain hChar | rfl := hInside c hMem
        · exact Or.inl hChar
        · simp
      · simp

theorem isHostChar_of_allowed {c : Char} (h : Idna.isAllowedAscii c = true) :
    isHostChar c = true := by
  have hAll : ∀ n < 0x80, Idna.isAllowedAscii (Char.ofNat n) = true →
      isHostChar (Char.ofNat n) = true := by decide +kernel
  exact of_toNat_lt (P := fun c => Idna.isAllowedAscii c = true → isHostChar c = true) hAll
    (Idna.toNat_lt_of_allowed h) h

theorem isHostChar_of_value? {c : Char} (h : (Hex.value? c).isSome = true) :
    isHostChar c = true := by
  have hAll : ∀ n < 0x80, (Hex.value? (Char.ofNat n)).isSome = true →
      isHostChar (Char.ofNat n) = true := by decide +kernel
  obtain ⟨n, hValue⟩ := Option.isSome_iff_exists.mp h
  exact of_toNat_lt (P := fun c => (Hex.value? c).isSome = true → isHostChar c = true) hAll
    (Hex.of_value?_eq_some hValue).2.2 h

theorem mem_piecesChars {ps : List Nat} {c : Char} (h : c ∈ piecesChars ps) :
    isHostChar c = true ∨ c = ':' := by
  induction ps with
  | nil => simp [piecesChars] at h
  | cons p ps ih =>
      have hDigits (c : Char) (hMem : c ∈ Nat.toDigits 16 p) : isHostChar c = true :=
        isHostChar_of_value? ((Hex.toDigits_spec p).2 c hMem)
      cases ps with
      | nil => exact Or.inl (hDigits c h)
      | cons q ps =>
          rw [piecesChars_cons_cons, List.mem_append, List.mem_cons] at h
          obtain h | rfl | h := h
          · exact Or.inl (hDigits c h)
          · exact Or.inr rfl
          · exact ih h

theorem hostText_ipv6 (ps : List Nat) : HostText (Host.ipv6 ps).chars := by
  refine .brackets fun c hMem => ?_
  unfold ipv6Chars at hMem
  split at hMem
  · exact mem_piecesChars hMem
  · simp only [List.mem_append, List.mem_cons] at hMem
    obtain hMem | rfl | rfl | hMem := hMem
    · exact mem_piecesChars hMem
    · exact Or.inr rfl
    · exact Or.inr rfl
    · exact mem_piecesChars hMem

/-! ## Addresses in brackets -/

theorem exists_of_bracketed {cs : List Char} {host : Host} (h : bracketed cs = .ok host) :
    ∃ ps, IsIpv6 ps ∧ host = .ipv6 ps := by
  unfold bracketed at h
  split at h
  · next ps _ hRead =>
      exact ⟨ps, IsIpv6.of_ipv6? hRead, (Except.ok.inj h).symm⟩
  · simp at h

theorem bracketed_ipv6Chars {ps : List Nat} (h : IsIpv6 ps) :
    bracketed (ipv6Chars ps ++ [']']) = .ok (.ipv6 ps) := by
  simp [bracketed, ipv6?_ipv6Chars h]

/-! ## Hosts of the common schemes -/

section

variable {name : List Char} (hName : Idna.toAscii name = some name)

include hName

theorem isAllowed_of_mem : ∀ c ∈ name, Idna.isAllowedAscii c = true :=
  (Idna.of_toAscii_eq_some hName).1

theorem not_mem_of_toAscii {c : Char} (hForbidden : Idna.isAllowedAscii c = false) : c ∉ name := by
  intro hMem
  rw [isAllowed_of_mem hName c hMem] at hForbidden
  exact Bool.noConfusion hForbidden

/-- A name in its spelling is decoded and spelled as itself, and only its last label is looked
at. -/
theorem specialHost_of_toAscii (hSome : name ≠ []) : specialHost name =
    if endsInNumber name then (ipv4? name).elim (.error .invalidIpv4) fun a => .ok (.ipv4 a)
    else .ok (.name name) := by
  have hDecoded : Utf8.decode? (percentDecode name) = .ok name := by
    rw [percentDecode_of_not_mem (not_mem_of_toAscii hName (by decide)), Utf8.decode?_encode]
  rw [specialHost]
  · obtain ⟨c, cs, rfl⟩ := List.exists_cons_of_ne_nil hSome
    simp only [hDecoded, hName]
    cases ipv4? (c :: cs) <;> rfl
  · rintro rest rfl
    exact not_mem_of_toAscii hName (c := '[') (by decide) (by simp)

end

theorem isAllowed_of_isDigit {c : Char} (h : c.isDigit = true) : Idna.isAllowedAscii c = true := by
  have hAll : ∀ n < 0x80, (Char.ofNat n).isDigit = true →
      Idna.isAllowedAscii (Char.ofNat n) = true := by decide +kernel
  have hLess : c.toNat < 0x80 := by
    simp only [Char.isDigit, Bool.and_eq_true, decide_eq_true_eq, ge_iff_le,
      UInt32.le_iff_toNat_le, Char.toNat_val] at h
    exact h.2.trans_lt (by decide)
  exact of_toNat_lt (P := fun c => c.isDigit = true → Idna.isAllowedAscii c = true) hAll hLess h

theorem labelToAscii_of_digits {label : List Char} (h : ∀ c ∈ label, c.isDigit = true) :
    Idna.labelToAscii label = some label := by
  have hAscii : Idna.isAscii label = true := by
    refine List.all_eq_true.mpr fun c hMem => ?_
    simpa using Idna.toNat_lt_of_allowed (isAllowed_of_isDigit (h c hMem))
  rw [Idna.labelToAscii, if_pos hAscii]
  rintro row rfl
  exact absurd (h 'x' (by simp)) (by decide)

/-- An address of 32 bits is a name in its spelling. -/
theorem toAscii_ipv4Chars (a : Nat) : Idna.toAscii (ipv4Chars a) = some (ipv4Chars a) := by
  have hDigits (l : List Char) (hMem : l ∈ (ipv4Bytes a).map Decimal.natDigits) :
      ∀ c ∈ l, c.isDigit = true := (natDigits_ipv4Bytes a l hMem).2
  rw [ipv4Chars_eq]
  refine Idna.toAscii_joinLabels (by simp [ipv4Bytes]) (fun l hMem hStop => ?_)
    (mapM_eq_some_self fun l hMem => labelToAscii_of_digits (hDigits l hMem)) fun c hMem => ?_
  · exact absurd (hDigits l hMem '.' hStop) (by decide)
  · obtain rfl | ⟨l, hLabel, hMem⟩ := Idna.mem_joinLabels hMem
    · decide
    · exact isAllowed_of_isDigit (hDigits l hLabel c hMem)

theorem ipv4Chars_ne_nil (a : Nat) : ipv4Chars a ≠ [] := by
  simp [ipv4Chars]

/-- A host of a common scheme is a number, or a name in its spelling that is none. -/
theorem specialHost_cases {cs : List Char} {host : Host} (h : specialHost cs = .ok host) :
    (∃ ps, IsIpv6 ps ∧ host = .ipv6 ps) ∨ (∃ a < 2 ^ 32, host = .ipv4 a) ∨
      ∃ name, Idna.toAscii name = some name ∧ name ≠ [] ∧ endsInNumber name = false ∧
        host = .name name := by
  unfold specialHost at h
  split at h
  · exact Or.inl (exists_of_bracketed h)
  · split at h
    · simp at h
    · next decoded _ =>
        split at h
        · simp at h
        · simp at h
        · next name hSome hName =>
            split_ifs at h with hNumber
            · split at h
              · next a hRead =>
                  exact Or.inr (Or.inl ⟨a, lt_of_ipv4? hRead, (Except.ok.inj h).symm⟩)
              · simp at h
            · refine Or.inr (Or.inr ⟨name, Idna.toAscii_toAscii hName, ?_, by simpa using hNumber,
                (Except.ok.inj h).symm⟩)
              rintro rfl
              exact hSome rfl

/-- **A host of a common scheme is read back.** -/
theorem specialHost_chars {cs : List Char} {host : Host} (h : specialHost cs = .ok host) :
    specialHost host.chars = .ok host := by
  obtain ⟨ps, hPieces, rfl⟩ | ⟨a, hLess, rfl⟩ | ⟨name, hName, hSome, hNumber, rfl⟩ :=
    specialHost_cases h
  · exact bracketed_ipv6Chars hPieces
  · rw [Host.chars, specialHost_of_toAscii (toAscii_ipv4Chars a) (ipv4Chars_ne_nil a),
      if_pos (endsInNumber_ipv4Chars a), ipv4?_ipv4Chars hLess]
    rfl
  · rw [Host.chars, specialHost_of_toAscii hName hSome, hNumber]
    rfl

theorem chars_ne_nil_of_specialHost {cs : List Char} {host : Host}
    (h : specialHost cs = .ok host) : host.chars ≠ [] := by
  obtain ⟨ps, _, rfl⟩ | ⟨a, _, rfl⟩ | ⟨name, _, hSome, _, rfl⟩ := specialHost_cases h
  · simp [Host.chars]
  · exact ipv4Chars_ne_nil a
  · exact hSome

theorem hostText_of_specialHost {cs : List Char} {host : Host} (h : specialHost cs = .ok host) :
    HostText host.chars := by
  obtain ⟨ps, _, rfl⟩ | ⟨a, _, rfl⟩ | ⟨name, hName, _, _, rfl⟩ := specialHost_cases h
  · exact hostText_ipv6 ps
  · exact .plain fun c hMem => isHostChar_of_allowed (isAllowed_of_mem (toAscii_ipv4Chars a) c hMem)
  · exact .plain fun c hMem => isHostChar_of_allowed (isAllowed_of_mem hName c hMem)

/-! ## Hosts of all other schemes -/

/-- A host of another scheme is a number in brackets, or a text without the characters that stand
for something else. -/
theorem plainHost_cases {cs : List Char} {host : Host} (h : plainHost cs = .ok host) :
    (∃ ps, IsIpv6 ps ∧ host = .ipv6 ps) ∨
      ∃ name, (∀ c ∈ name, isForbiddenInHost c = false ∧ inControlSet c = false) ∧
        host = .name name := by
  unfold plainHost at h
  split at h
  · exact Or.inl (exists_of_bracketed h)
  · split_ifs at h with hForbidden
    simp only [List.any_eq_true, not_exists, not_and] at hForbidden
    refine Or.inr ⟨_, fun c hMem => ⟨?_, ?_⟩, (Except.ok.inj h).symm⟩
    · have hKept : (!isForbiddenInHost c) = true := forall_mem_percentEncode
        (p := fun c => !isForbiddenInHost c) (by decide)
        (fun c hOld _ => by simpa using hForbidden c hOld) c hMem
      simpa using hKept
    · exact forall_mem_percentEncode_not (by decide) c hMem

/-- **A host of another scheme is read back.** -/
theorem plainHost_chars {cs : List Char} {host : Host} (h : plainHost cs = .ok host) :
    plainHost host.chars = .ok host := by
  obtain ⟨ps, hPieces, rfl⟩ | ⟨name, hName, rfl⟩ := plainHost_cases h
  · exact bracketed_ipv6Chars hPieces
  · rw [Host.chars, plainHost]
    · rw [if_neg, percentEncode_of_forall fun c hMem => (hName c hMem).2]
      simp only [List.any_eq_true, not_exists, not_and]
      intro c hMem
      simp [(hName c hMem).1]
    · rintro rest rfl
      exact absurd (hName '[' (by simp)).1 (by decide)

theorem hostText_of_plainHost {cs : List Char} {host : Host} (h : plainHost cs = .ok host) :
    HostText host.chars := by
  obtain ⟨ps, _, rfl⟩ | ⟨name, hName, rfl⟩ := plainHost_cases h
  · exact hostText_ipv6 ps
  · refine .plain fun c hMem => ?_
    obtain ⟨hAllowed, hControl⟩ := hName c hMem
    have hSpace : c ≠ ' ' := by
      rintro rfl
      exact absurd hAllowed (by decide)
    simp [isHostChar, hAllowed, lt_toNat_of_not_control hControl hSpace]

end PagePreview.Url
