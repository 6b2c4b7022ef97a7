import Mathlib.Tactic.SplitIfs
import PagePreview.Proofs.Text.WrittenUtf8
import PagePreview.Url.PathReader
import PagePreview.Url.Percent

/-!
# Escapes and the segments of a path

What `percentEncode` writes consists of the characters that stand for
themselves and of those of the escapes (`forall_mem_percentEncode`).  If the set
has no character of the escapes in it, then everything in an encoded text stands
for itself (`forall_mem_percentEncode_not`), and such a text is left as it is
when it is encoded again (`percentEncode_of_forall`).

Whatever text a path is read from, its segments consist of characters that
stand for themselves in a path and are no slashes (`IsClean.readSegments`), and
there is at least one (`readSegments_done_ne_nil`).  Each step of the reader
keeps the first property.
-/

namespace PagePreview.Url

open Text

/-! ## Escapes -/

/-- The characters that escapes are made of. -/
def escapeChars : List Char := "%0123456789ABCDEF".toList

theorem mem_escapeChars_of_mem_percentByte {b : UInt8} {c : Char} (h : c ∈ percentByte b) :
    c ∈ escapeChars := by
  have hDigit : ∀ n < 16, Hex.upper n ∈ escapeChars := by decide
  have hByte : b.toNat < 256 := UInt8.toNat_lt_size b
  simp only [percentByte, Hex.byteUpper, List.mem_cons, List.not_mem_nil, or_false] at h
  obtain rfl | rfl | rfl := h
  · decide
  · exact hDigit _ (by omega)
  · exact hDigit _ (by omega)

theorem lt_toNat_of_not_control {c : Char} (hControl : inControlSet c = false) (hSpace : c ≠ ' ') :
    0x20 < c.toNat := by
  have hOther : c.toNat ≠ 0x20 := fun hEq => hSpace (Char.toNat_inj.mp hEq)
  simp only [inControlSet, Bool.or_eq_false_iff, decide_eq_false_iff_not] at hControl
  omega

section

variable {inSet p : Char → Bool} {cs : List Char}

theorem percentEncode_cons (c : Char) (cs : List Char) :
    percentEncode inSet (c :: cs) =
      (if inSet c then (Utf8.encode [c]).flatMap percentByte else [c]) ++ percentEncode inSet cs :=
  List.flatMap_cons

/-- Each character of an encoded text stands for itself or belongs to an escape. -/
theorem forall_mem_percentEncode (hEscapes : escapeChars.all p = true)
    (h : ∀ c ∈ cs, inSet c = false → p c = true) : ∀ c ∈ percentEncode inSet cs, p c = true := by
  intro c hMem
  obtain ⟨d, hOld, hMem⟩ := List.mem_flatMap.mp hMem
  split at hMem
  · obtain ⟨b, _, hMem⟩ := List.mem_flatMap.mp hMem
    exact List.all_eq_true.mp hEscapes c (mem_escapeChars_of_mem_percentByte hMem)
  · next hKept =>
      obtain rfl := List.mem_singleton.mp hMem
      exact h c hOld (by simpa using hKept)

/-- An encoded text begins with an escape or as the text does. -/
theorem head?_percentEncode_ne {d : Char} (hEscapes : d ∉ escapeChars) (h : cs.head? ≠ some d) :
    (percentEncode inSet cs).head? ≠ some d := by
  cases cs with
  | nil => simp [percentEncode]
  | cons c cs =>
      rw [percentEncode_cons]
      split
      · obtain ⟨b, bs, hBytes⟩ : ∃ b bs, Utf8.encode [c] = b :: bs :=
          List.exists_cons_of_ne_nil (by simp [Utf8.encode])
        rw [hBytes, List.flatMap_cons, percentByte]
        intro hFirst
        obtain rfl : '%' = d := by simpa using hFirst
        exact hEscapes (by decide)
      · exact h

/-- A text in which everything stands for itself is left as it is. -/
theorem percentEncode_of_forall (h : ∀ c ∈ cs, inSet c = false) : percentEncode inSet cs = cs := by
  induction cs with
  | nil => rfl
  | cons c cs ih =>
      rw [List.forall_mem_cons] at h
      rw [percentEncode_cons, h.1, ih h.2]
      rfl

/-- In an encoded text everything stands for itself. -/
theorem forall_mem_percentEncode_not (hEscapes : (escapeChars.all fun c => !inSet c) = true) :
    ∀ c ∈ percentEncode inSet cs, inSet c = false := by
  intro c hMem
  have hKept := forall_mem_percentEncode (p := fun c => !inSet c) hEscapes
    (fun c _ hKept => by simp [hKept]) c hMem
  simpa using hKept

end

/-- Without a percent sign nothing is decoded. -/
theorem percentDecode_of_not_mem {cs : List Char} (h : '%' ∉ cs) :
    percentDecode cs = Utf8.encode cs := by
  induction cs with
  | nil => rfl
  | cons c cs ih =>
      simp only [List.mem_cons, not_or] at h
      rw [percentDecode, ih h.2, Utf8.encode_cons]
      · simp [Utf8.encode]
      · rintro a b rest rfl
        exact absurd rfl h.1

/-! ## Segments -/

/-- A character of a segment. -/
def isSegmentChar (kind : SchemeKind) (c : Char) : Bool := !inPathSet c && !isSlash kind c

/-- Segments without characters that mean something in a path. -/
def IsClean (kind : SchemeKind) (segments : List (List Char)) : Prop :=
  ∀ segment ∈ segments, ∀ c ∈ segment, isSegmentChar kind c = true

variable {kind : SchemeKind}

theorem isSegmentChar_encoded {c : Char} (hSlash : isSlash kind c = false) :
    ∀ d ∈ percentEncode inPathSet [c], isSegmentChar kind d = true := by
  refine forall_mem_percentEncode (by cases kind <;> decide) fun d hMem hKept => ?_
  obtain rfl := List.mem_singleton.mp hMem
  simp [isSegmentChar, hKept, hSlash]

namespace PathState

variable {s : PathState} {segment : List Char}

theorem up_clean (h : IsClean kind s.done) : IsClean kind s.up.done := by
  unfold up
  split
  · exact h
  · next last rest hDone =>
      split_ifs
      · exact h
      · rw [hDone] at h
        exact fun l hMem => h l (List.mem_cons_of_mem last hMem)

theorem push_clean (h : IsClean kind s.done)
    (hSegment : ∀ c ∈ segment, isSegmentChar kind c = true) :
    IsClean kind (s.push segment).done := by
  unfold push
  split_ifs
  · -- a drive is written with a colon
    intro l hMem c hChar
    obtain rfl := List.mem_singleton.mp hMem
    obtain hChar | hChar := List.mem_append.mp hChar
    · exact hSegment c (List.mem_of_mem_take hChar)
    · obtain rfl := List.mem_singleton.mp hChar
      cases kind <;> decide
  · exact List.forall_mem_cons.mpr ⟨hSegment, h⟩

theorem directory_clean (h : IsClean kind s.done)
    (hSegment : ∀ c ∈ segment, isSegmentChar kind c = true) :
    IsClean kind (s.directory segment).done := by
  unfold directory
  split_ifs
  · exact up_clean h
  · exact h
  · exact push_clean h hSegment

theorem finish_clean (h : IsClean kind s.done)
    (hSegment : ∀ c ∈ segment, isSegmentChar kind c = true) :
    IsClean kind (s.finish segment).done := by
  unfold finish
  split_ifs
  · exact push_clean (up_clean h) (by simp)
  · exact push_clean h (by simp)
  · exact push_clean h hSegment

theorem push_done_ne_nil (s : PathState) (segment : List Char) : (s.push segment).done ≠ [] := by
  unfold push
  split_ifs <;> simp

theorem finish_done_ne_nil (s : PathState) (segment : List Char) :
    (s.finish segment).done ≠ [] := by
  unfold finish
  split_ifs <;> exact push_done_ne_nil _ _

end PathState

/-- **Segments that are read are clean.** -/
theorem IsClean.readSegments {s : PathState} {segment : List Char} (h : IsClean kind s.done)
    (hSegment : ∀ c ∈ segment, isSegmentChar kind c = true) (cs : List Char) :
    IsClean kind (readSegments kind s segment cs).1.done := by
  induction cs generalizing s segment with
  | nil => exact s.finish_clean h (by simpa using hSegment)
  | cons c cs ih =>
      have hReverse : ∀ d ∈ segment.reverse, isSegmentChar kind d = true := by simpa using hSegment
      have hEncoded (hSlash : ¬isSlash kind c = true) :
          ∀ d ∈ (percentEncode inPathSet [c]).reverse, isSegmentChar kind d = true := by
        simpa using isSegmentChar_encoded (by simpa using hSlash)
      rw [Url.readSegments]
      split_ifs with hEnd hSlash hDrive
      · exact s.finish_clean h hReverse
      · exact ih (s.directory_clean h hReverse) (by simp)
      · exact ih (s.push_clean h hReverse) (hEncoded hSlash)
      · refine ih h fun d hMem => ?_
        obtain hMem | hMem := List.mem_append.mp hMem
        · exact hEncoded hSlash d hMem
        · exact hSegment d hMem

theorem readSegments_done_ne_nil (s : PathState) (segment cs : List Char) :
    (readSegments kind s segment cs).1.done ≠ [] := by
  induction cs generalizing s segment with
  | nil => exact s.finish_done_ne_nil _
  | cons c cs ih =>
      rw [readSegments]
      split_ifs
      · exact s.finish_done_ne_nil _
      all_goals exact ih _ _

/-! ## Whole paths -/

theorem dropEmptyFront_sublist (segments : List (List Char)) :
    (dropEmptyFront segments).Sublist segments := by
  fun_induction dropEmptyFront segments with
  | case1 next rest ih => exact ih.cons []
  | case2 => exact List.Sublist.refl _

theorem dropEmptyFront_ne_nil {segments : List (List Char)} (h : segments ≠ []) :
    dropEmptyFront segments ≠ [] := by
  fun_induction dropEmptyFront segments with
  | case1 next rest ih => exact ih (by simp)
  | case2 => exact h

theorem readPathBelow_clean {base : List (List Char)} (h : IsClean kind base) (cs : List Char) :
    IsClean kind (readPathBelow kind base cs).1 := by
  have hDone : IsClean kind (readSegments kind ⟨base, kind == .file, false⟩ [] cs).1.done :=
    IsClean.readSegments h (by simp) cs
  intro l hMem
  refine hDone l ?_
  simp only [readPathBelow, PathState.segments] at hMem
  split_ifs at hMem
  · simpa using (dropEmptyFront_sublist _).subset hMem
  · simpa using hMem

theorem readPathBelow_ne_nil (base : List (List Char)) (cs : List Char) :
    (readPathBelow kind base cs).1 ≠ [] := by
  have hDone : (readSegments kind ⟨base, kind == .file, false⟩ [] cs).1.done ≠ [] :=
    readSegments_done_ne_nil _ [] cs
  simp only [readPathBelow, PathState.segments]
  split_ifs
  · exact dropEmptyFront_ne_nil (by simpa using hDone)
  · simpa using hDone

theorem readPathBehindHost_clean (cs : List Char) :
    IsClean kind (readPathBehindHost kind cs).1 := by
  have hNone : IsClean kind [] := fun _ hMem => absurd hMem List.not_mem_nil
  have hEmpty : IsClean kind [[]] := by simp [IsClean]
  cases cs with
  | nil =>
      rw [readPathBehindHost]
      split_ifs
      · exact hNone
      · exact hEmpty
  | cons c rest =>
      rw [readPathBehindHost]
      split_ifs
      · exact readPathBelow_clean hNone rest
      · exact hNone
      · exact readPathBelow_clean hNone (c :: rest)

/-- A common scheme always has a path behind the host. -/
theorem readPathBehindHost_ne_nil (hKind : kind ≠ .other) (cs : List Char) :
    (readPathBehindHost kind cs).1 ≠ [] := by
  cases cs with
  | nil => simp [readPathBehindHost, hKind]
  | cons c rest =>
      rw [readPathBehindHost]
      split_ifs with hSlash hOther
      · exact readPathBelow_ne_nil [] rest
      · simp [hKind] at hOther
      · exact readPathBelow_ne_nil [] (c :: rest)

end PagePreview.Url
