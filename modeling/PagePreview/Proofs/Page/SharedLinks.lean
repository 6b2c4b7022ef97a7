import PagePreview.Page.Launch
import PagePreview.Proofs.Text.Base64Groups
import PagePreview.Proofs.Text.Pieces
import PagePreview.Proofs.Text.WrittenUtf8

/-!
# Links open what was shared

A page is written into a link as base64, and no sign of base64 is a number
sign, the mark of a preview or a blank (`of_mem_encodeFragment`).  So a link is
cut where it was put together, the mark is found exactly where it was set, and
nothing is trimmed.

* `decodeFragment_encodeFragment`: a page is read back from its fragment.
* `ShareLinks.opens_make`: what the two links to a page open, whatever the
  address, as a whole and when only a part of them is given.
* `decodeFragment_eq_ok_iff`: a page has one fragment, up to blanks around it.
  Neither base64 nor UTF-8 has a second writing, and the signs of base64 are
  characters that are their own bytes.
-/

namespace PagePreview.Page

open Text Script

/-! ## The fragment that holds a page -/

theorem of_isSign {b : UInt8} (h : Base64.IsSign b) :
    b.toNat < 0x80 ∧ isBlank (Char.ofNat b.toNat) = false ∧ Char.ofNat b.toNat ≠ '#' ∧
      Char.ofNat b.toNat ≠ previewMark := by
  refine h.of_forall (P := fun b => b.toNat < 0x80 ∧ isBlank (Char.ofNat b.toNat) = false ∧
    Char.ofNat b.toNat ≠ '#' ∧ Char.ofNat b.toNat ≠ previewMark) ?_ ?_
  · decide
  · decide

/-- Bytes below 128 are the bytes of their characters. -/
theorem encode_asciiChars {bs : List UInt8} (h : ∀ b ∈ bs, b.toNat < 0x80) :
    Utf8.encode (asciiChars bs) = bs := by
  have hNat : ∀ n < 0x80, UInt8.ofNat (Char.ofNat n).toNat = UInt8.ofNat n := by decide
  have hChar : ∀ n < 0x80, (Char.ofNat n).toNat < 0x80 := by decide
  rw [Utf8.encode_of_forall_lt, asciiChars, List.map_map]
  · have hEach : ∀ b ∈ bs, UInt8.ofNat (Char.ofNat b.toNat).toNat = b := by
      intro b hb
      rw [hNat _ (h b hb), UInt8.ofNat_toNat]
    exact (List.map_congr_left hEach).trans (List.map_id' bs)
  · intro c hc
    obtain ⟨b, hb, rfl⟩ := List.mem_map.mp hc
    exact hChar _ (h b hb)

section Fragment

variable (source : String)

theorem toList_encodeFragment :
    (encodeFragment source).toList = asciiChars (Base64.encode (Utf8.encode source.toList)) := by
  rw [encodeFragment, String.toList_ofList]

/-- **No sign of a fragment** is a blank, a number sign or the mark of a preview. -/
theorem of_mem_encodeFragment {c : Char} (h : c ∈ (encodeFragment source).toList) :
    isBlank c = false ∧ c ≠ '#' ∧ c ≠ previewMark := by
  rw [toList_encodeFragment] at h
  obtain ⟨b, hb, rfl⟩ := List.mem_map.mp h
  exact (of_isSign (Base64.forall_isSign_encode _ b hb)).2

/-- **A page is read back from its fragment.** -/
theorem decodeFragment_encodeFragment : decodeFragment (encodeFragment source) = .ok source := by
  have hTrim : trimChars (encodeFragment source).toList = (encodeFragment source).toList :=
    trimChars_of_forall fun c hc => (of_mem_encodeFragment source hc).1
  have hBytes : Utf8.encode (encodeFragment source).toList =
      Base64.encode (Utf8.encode source.toList) := by
    rw [toList_encodeFragment]
    exact encode_asciiChars fun b hb => (of_isSign (Base64.forall_isSign_encode _ b hb)).1
  rw [decodeFragment, hTrim, hBytes, Base64.decode_encode]
  simp only [Utf8.decode?_encode, String.ofList_toList]

end Fragment

/-! ## Cutting a link -/

section Cut

variable {address part : List Char}

theorem fragmentOf_append (hAddress : '#' ∉ address) :
    fragmentOf (String.ofList (address ++ '#' :: part)) = String.ofList part := by
  have hCut : (address ++ '#' :: part).dropWhile (· != '#') = '#' :: part :=
    dropWhile_append_stop (all_bne_of_not_mem hAddress) (by decide) part
  rw [fragmentOf, String.toList_ofList, hCut]

/-- A fragment is its own fragment. -/
theorem fragmentOf_of_not_mem (hPart : '#' ∉ part) :
    fragmentOf (String.ofList part) = String.ofList part := by
  have hCut : part.dropWhile (· != '#') = [] := dropWhile_of_forall (all_bne_of_not_mem hPart)
  rw [fragmentOf, String.toList_ofList, hCut]

/-- A number sign in front of a fragment makes no difference. -/
theorem ofFragment_hash (compile : Compiler) (hPart : '#' ∉ part) :
    Launch.ofFragment compile (String.ofList ('#' :: part)) =
      Launch.ofFragment compile (String.ofList part) := by
  have hSign : (dropFront? ['#'] ('#' :: part)).getD ('#' :: part) = part := rfl
  have hNone : (dropFront? ['#'] part).getD part = part := by
    cases part with
    | nil => rfl
    | cons c cs =>
        have hFirst : '#' ≠ c := fun h => hPart (h ▸ List.mem_cons_self)
        rw [dropFront?, if_neg hFirst, Option.getD_none]
  simp only [Launch.ofFragment, String.toList_ofList, hSign, hNone]

end Cut

/-- What a link opens, and what stands behind its number sign when it is given without the rest of
the link: with the sign or without it, to `fragmentOf` or as a fragment. -/
structure Opens (compile : Compiler) (link : String) (what : Launch) : Prop where
  whole : Launch.ofFragment compile (fragmentOf link) = what
  cut : ∃ address part, link = address ++ "#" ++ part
  part : ∀ address part, link = address ++ "#" ++ part → ∀ given ∈ [part, "#" ++ part],
    Launch.ofFragment compile given = what ∧ Launch.ofFragment compile (fragmentOf given) = what

/-- A link with a single number sign opens what its fragment opens. -/
theorem opens_of_ofFragment {compile : Compiler} {address part : List Char} {what : Launch}
    (hAddress : '#' ∉ address) (hPart : '#' ∉ part)
    (h : Launch.ofFragment compile (String.ofList part) = what) :
    Opens compile (String.ofList (address ++ '#' :: part)) what where
  whole := by rw [fragmentOf_append hAddress, h]
  cut := by
    refine ⟨String.ofList address, String.ofList part, String.ext ?_⟩
    simp [String.toList_append]
  part := by
    intro front back hCut given hGiven
    have hChars : address ++ '#' :: part = front.toList ++ '#' :: back.toList := by
      have hList := congrArg String.toList hCut
      simpa [String.toList_append] using hList
    have hBack : part = back.toList := ((List.append_cons_inj_of_notMem hAddress hPart).mp hChars).2.2
    have hHash : String.ofList ('#' :: part) = "#" ++ String.ofList part :=
      String.ext (by simp [String.toList_append])
    have hSigned := (ofFragment_hash compile hPart).trans h
    have hFragment : fragmentOf (String.ofList ([] ++ '#' :: part)) = String.ofList part :=
      fragmentOf_append (by simp)
    rw [List.nil_append] at hFragment
    obtain rfl : String.ofList part = back := by rw [hBack, String.ofList_toList]
    rw [hHash] at hSigned hFragment
    simp only [List.mem_cons, List.not_mem_nil, or_false] at hGiven
    rcases hGiven with rfl | rfl
    · exact ⟨h, by rw [fragmentOf_of_not_mem hPart, h]⟩
    · exact ⟨hSigned, by rw [hFragment, h]⟩

/-! ## What the links to a page open -/

section Launch

variable (compile : Compiler) (source : String)

theorem ofFragment_of_not_hash {c : Char} (hHash : c ≠ '#') (cs : List Char) :
    Launch.ofFragment compile (String.ofList (c :: cs)) =
      if c == previewMark then
        match decodeFragment (String.ofList cs) with
        | .ok source => .preview (prepare compile source).html
        | .error _ => .editor defaultSource
      else Launch.openEditor (String.ofList (c :: cs)) := by
  have hNone : (dropFront? ['#'] (c :: cs)).getD (c :: cs) = c :: cs := by
    rw [dropFront?, if_neg hHash.symm, Option.getD_none]
  cases hRead : decodeFragment (String.ofList cs) <;>
    simp only [Launch.ofFragment, String.toList_ofList, hNone, hRead]

theorem ofFragment_preview :
    Launch.ofFragment compile (String.ofList (previewMark :: (encodeFragment source).toList)) =
      .preview (prepare compile source).html := by
  rw [ofFragment_of_not_hash compile (by decide), if_pos (by decide), String.ofList_toList,
    decodeFragment_encodeFragment]

/-- A page opens in the editor from its fragment, and the default page from none. -/
theorem ofFragment_editor :
    Launch.ofFragment compile (encodeFragment source) =
      .editor (if source = "" then defaultSource else source) := by
  have hRead := decodeFragment_encodeFragment source
  have hSigns := fun c => of_mem_encodeFragment source (c := c)
  by_cases hEmpty : source = ""
  · rw [if_pos hEmpty, hEmpty]
    rfl
  · rw [if_neg hEmpty]
    generalize encodeFragment source = fragment at hRead hSigns
    obtain ⟨cs, rfl⟩ : ∃ cs, fragment = String.ofList cs := ⟨_, String.ofList_toList.symm⟩
    rw [String.toList_ofList] at hSigns
    cases cs with
    | nil =>
        have hNothing : decodeFragment "" = .ok "" := by decide +kernel
        exact absurd (Except.ok.inj (hRead.symm.trans hNothing)) hEmpty
    | cons c cs =>
        obtain ⟨-, hHash, hMark⟩ := hSigns c List.mem_cons_self
        rw [ofFragment_of_not_hash compile hHash, if_neg (by simp [hMark]), Launch.openEditor, hRead]

/-- **Links open what was shared**, whatever the address. -/
theorem ShareLinks.opens_make (base : String) :
    let links := ShareLinks.make base source
    Opens compile links.preview (.preview (prepare compile source).html) ∧
      Opens compile links.view (.editor (if source = "" then defaultSource else source)) ∧
      (∀ html, ¬ Opens compile links.view (.preview html)) ∧
      ∀ text, ¬ Opens compile links.preview (.editor text) := by
  intro links
  have hAddress : '#' ∉ withoutFragment base.toList := by
    intro hMem
    exact absurd (List.mem_takeWhile_imp hMem) (by decide)
  have hPart : '#' ∉ (encodeFragment source).toList := fun hMem =>
    (of_mem_encodeFragment source hMem).2.1 rfl
  have hMarked : '#' ∉ previewMark :: (encodeFragment source).toList :=
    List.not_mem_cons_of_ne_of_not_mem (by decide) hPart
  have hPreview : Opens compile links.preview (.preview (prepare compile source).html) :=
    opens_of_ofFragment hAddress hMarked (ofFragment_preview compile source)
  have hView : Opens compile links.view
      (.editor (if source = "" then defaultSource else source)) := by
    refine opens_of_ofFragment hAddress hPart ?_
    rw [String.ofList_toList, ofFragment_editor]
  refine ⟨hPreview, hView, fun html hOther => ?_, fun text hOther => ?_⟩
  · exact absurd (hOther.whole.symm.trans hView.whole) (by simp)
  · exact absurd (hOther.whole.symm.trans hPreview.whole) (by simp)

end Launch

/-! ## Fragments that are read -/

/-- A text with the same bytes is the same text. -/
theorem eq_of_encode_eq {cs ds : List Char} (h : Utf8.encode cs = Utf8.encode ds) : cs = ds := by
  have hRead : Utf8.decode? (Utf8.encode cs) = .ok ds := by rw [h, Utf8.decode?_encode]
  rw [Utf8.decode?_encode] at hRead
  exact Except.ok.inj hRead

/-- What a page is read from is the fragment of that page, once blanks are cut off. -/
theorem trimChars_of_decodeFragment {fragment source : String}
    (h : decodeFragment fragment = .ok source) :
    trimChars fragment.toList = (encodeFragment source).toList := by
  unfold decodeFragment at h
  split at h
  · simp at h
  · next bytes hSigns =>
      split at h
      · simp at h
      · next cs hText =>
          obtain rfl := Except.ok.inj h
          have hBytes : bytes = Utf8.encode cs := Utf8.eq_encode_of_decode? hText
          have hWritten := Base64.eq_encode_of_decode hSigns
          have hSmall : ∀ b ∈ Base64.encode (Utf8.encode cs), b.toNat < 0x80 := fun b hb =>
            (of_isSign (Base64.forall_isSign_encode _ b hb)).1
          rw [toList_encodeFragment, String.toList_ofList]
          apply eq_of_encode_eq
          rw [hWritten, hBytes, encode_asciiChars hSmall]

/-- **A fragment holds a page exactly if it is the fragment of that page**, blanks around it left
aside. -/
theorem decodeFragment_eq_ok_iff (fragment source : String) :
    decodeFragment fragment = .ok source ↔ trim fragment = encodeFragment source := by
  constructor
  · intro h
    rw [trim, trimChars_of_decodeFragment h, String.ofList_toList]
  · intro h
    have hTrim : trimChars fragment.toList = (encodeFragment source).toList := by
      rw [← h, trim, String.toList_ofList]
    have hOwn : trimChars (encodeFragment source).toList = (encodeFragment source).toList :=
      trimChars_of_forall fun c hc => (of_mem_encodeFragment source hc).1
    have hRead := decodeFragment_encodeFragment source
    rw [decodeFragment, hOwn] at hRead
    rw [decodeFragment, hTrim]
    exact hRead

end PagePreview.Page
