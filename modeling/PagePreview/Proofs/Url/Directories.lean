import Mathlib.Data.List.DropRight
import PagePreview.Proofs.Url.RelativePaths

/-!
# Addresses of directories

Slashes at the end of an address belong to its authority, its path, its query
or its fragment, wherever it ends.  Behind the path they make empty segments, and
elsewhere they do nothing to it, so without the empty segments at its end the
path is the same (`exists_parse_append_slashes`).

The segments of a path that was read stay when its text is read again
(`readPathBehindHost_chars`): they are clean, and none of them leads upwards or
disappears (`readPathBehindHost_isKept`).  So an address without a query and a
fragment is read back as it is (`parse_chars_of_host`).
-/

namespace PagePreview.Url

open Text

variable {kind : SchemeKind}

/-! ## Segments that were read -/

namespace PathState

variable {s : PathState} {segment : List Char}

theorem mayBeDrive_up (s : PathState) : s.up.mayBeDrive = s.mayBeDrive := by
  unfold up
  split
  · rfl
  · split <;> rfl

theorem mayBeDrive_push (s : PathState) (segment : List Char) :
    (s.push segment).mayBeDrive = s.mayBeDrive := by
  unfold push
  split <;> rfl

theorem mayBeDrive_directory (s : PathState) (segment : List Char) :
    (s.directory segment).mayBeDrive = s.mayBeDrive := by
  unfold directory
  split_ifs
  · exact s.mayBeDrive_up
  · rfl
  · exact s.mayBeDrive_push segment

theorem isKept_up (h : IsKept s.done) : IsKept s.up.done := by
  unfold up
  split
  · exact h
  · next last rest hDone =>
      split_ifs
      · exact h
      · rw [hDone] at h
        exact fun l hMem => h l (List.mem_cons_of_mem last hMem)

theorem isKept_push (hDrive : s.mayBeDrive = false) (h : IsKept s.done)
    (hDot : isDot segment = false) (hDouble : isDoubleDot segment = false) :
    IsKept (s.push segment).done := by
  rw [push_of_no_drive hDrive]
  exact List.forall_mem_cons.mpr ⟨⟨hDot, hDouble⟩, h⟩

theorem isKept_directory (hDrive : s.mayBeDrive = false) (h : IsKept s.done)
    (segment : List Char) : IsKept (s.directory segment).done := by
  unfold directory
  split_ifs with hDouble hDot
  · exact isKept_up h
  · exact h
  · exact isKept_push hDrive h (by simpa using hDot) (by simpa using hDouble)

theorem isKept_finish (hDrive : s.mayBeDrive = false) (h : IsKept s.done)
    (segment : List Char) : IsKept (s.finish segment).done := by
  unfold finish
  split_ifs with hDouble hDot
  · exact isKept_push (s.mayBeDrive_up.trans hDrive) (isKept_up h) (by decide) (by decide)
  · exact isKept_push hDrive h (by decide) (by decide)
  · exact isKept_push hDrive h (by simpa using hDot) (by simpa using hDouble)

end PathState

/-- **Segments that are read stay.** -/
theorem IsKept.readSegments (hKind : kind ≠ .file) {s : PathState} (hDrive : s.mayBeDrive = false)
    (h : IsKept s.done) (segment cs : List Char) :
    IsKept (readSegments kind s segment cs).1.done := by
  induction cs generalizing s segment with
  | nil => exact PathState.isKept_finish hDrive h _
  | cons c cs ih =>
      rw [Url.readSegments]
      split_ifs with hEnd hSlash hFile
      · exact PathState.isKept_finish hDrive h _
      · exact ih ((s.mayBeDrive_directory _).trans hDrive) (PathState.isKept_directory hDrive h _) _
      · simp [hKind] at hFile
      · exact ih hDrive h _

theorem readPathBelow_isKept (hKind : kind ≠ .file) (cs : List Char) :
    IsKept (readPathBelow kind [] cs).1 := by
  have hFile : (kind == .file) = false := by simpa using hKind
  have hDone : IsKept (readSegments kind ⟨[], false, false⟩ [] cs).1.done :=
    IsKept.readSegments hKind rfl (fun _ hMem => absurd hMem List.not_mem_nil) [] cs
  intro segment hMem
  refine hDone segment ?_
  simpa [readPathBelow, PathState.segments, hFile] using hMem

theorem readPathBehindHost_isKept (hKind : kind ≠ .file) (cs : List Char) :
    IsKept (readPathBehindHost kind cs).1 := by
  have hNone : IsKept [] := fun _ hMem => absurd hMem List.not_mem_nil
  cases cs with
  | nil =>
      rw [readPathBehindHost]
      split_ifs
      · exact hNone
      · exact List.forall_mem_singleton.mpr ⟨by decide, by decide⟩
  | cons c rest =>
      rw [readPathBehindHost]
      split_ifs
      · exact readPathBelow_isKept hKind rest
      · exact hNone
      · exact readPathBelow_isKept hKind (c :: rest)

/-- The characters of a clean path. -/
theorem of_mem_chars {segments : List (List Char)} (h : IsClean .special segments) :
    ∀ c ∈ (Path.segments segments).chars, inPathSet c = false ∧ c ≠ '\\' := by
  intro c hMem
  obtain ⟨segment, hSegment, hMem⟩ := List.mem_flatMap.mp hMem
  obtain rfl | hMem := List.mem_cons.mp hMem
  · decide
  · have hChar := h segment hSegment c hMem
    rw [isSegmentChar, Bool.and_eq_true, Bool.not_eq_true'] at hChar
    refine ⟨hChar.1, ?_⟩
    rintro rfl
    exact absurd hChar.2 (by decide)

/-- **A path that was read is read back.** -/
theorem readPathBehindHost_chars {segments : List (List Char)} (hSome : segments ≠ [])
    (hClean : IsClean .special segments) (hKept : IsKept segments) :
    readPathBehindHost .special (Path.segments segments).chars = (segments, false, []) := by
  have hSlash : ∀ segment ∈ segments, '/' ∉ segment := fun segment hMem hChar =>
    absurd (hClean segment hMem '/' hChar) (by decide)
  let text := ['/'].intercalate segments
  have hSplit : text.splitOn '/' = segments := List.splitOn_intercalate '/' hSlash hSome
  have hText : (Path.segments segments).chars = '/' :: text := by
    rw [← chars_segments_splitOn, hSplit]
  have hChars : ∀ c ∈ text, inPathSet c = false ∧ c ≠ '\\' := fun c hMem =>
    of_mem_chars hClean c (hText ▸ List.mem_cons_of_mem '/' hMem)
  have hBelow : readPathBelow .special [] text = ([].reverse ++ text.splitOn '/', false, []) :=
    readPathBelow_kept (by decide) [] hChars (hSplit ▸ hKept)
  rw [hText, readPathBehindHost, if_pos (by decide), hBelow, hSplit]
  rfl

/-- **An address without a query and a fragment is read back as it is.** -/
theorem parse_chars_of_host {u : Url} {a : Authority} {segments : List (List Char)}
    (hKind : u.kind = .special) (hScheme : IsScheme u.scheme) (hAuthority : u.authority = some a)
    (hHost : a.IsRead u.scheme) (hPath : u.path = .segments segments) (hSome : segments ≠ [])
    (hClean : IsClean .special segments) (hKept : IsKept segments) (hQuery : u.query = none)
    (hFragment : u.fragment = none) : parse u.chars = .ok u := by
  rw [kind] at hKind
  have hTail : u.tail = [] := by simp [tail, hQuery, hFragment]
  have hChars : u.chars = u.scheme ++ ':' :: '/' :: '/' :: (a.chars ++ u.path.chars) := by
    rw [chars_eq, body_of_authority hAuthority, hTail, List.append_nil]
  have hAbove : ∀ c ∈ u.path.chars, 0x20 < c.toNat := fun c hMem =>
    toNat_of_not_inPathSet (of_mem_chars hClean c (hPath ▸ hMem)).1
  have hCut := significantRest_of_forall hAbove
  have hEnds : EndsHost u.path.chars := by
    have hNone : EndsHost [] := fun _ hFirst => by simp at hFirst
    have hPathEnds := endsHost_segments_append segments hNone
    rwa [List.append_nil, ← hPath] at hPathEnds
  rw [hChars, parse_of_host hHost hScheme (by simp [hKind]), hCut, behindSlashes_chars hHost hEnds,
    hPath, hKind, readPathBehindHost_chars hSome hClean hKept]
  obtain ⟨scheme, authority, path, query, fragment⟩ := u
  simp only at hAuthority hPath hQuery hFragment
  rw [hAuthority, hPath, hQuery, hFragment]
  rfl

/-! ## The end of a text -/

section

variable {p : Char → Bool} {cs more : List Char} {c : Char}

/-- A text is cut at its front only if its last character stays. -/
theorem trim_append (h : cs.getLast? = some c) (hKept : p c = false)
    (hMore : ∀ d ∈ more, p d = false) :
    dropEndWhile p ((cs ++ more).dropWhile p) = cs.dropWhile p ++ more ∧
      (cs.dropWhile p).getLast? = some c := by
  obtain ⟨front, rfl⟩ := List.getLast?_eq_some_iff.mp h
  have hLast : ((front ++ [c]).dropWhile p).getLast? = some c := by
    rw [List.dropWhile_append]
    split <;> simp [hKept]
  have hSome : ((front ++ [c]).dropWhile p).isEmpty = false := by
    cases hEmpty : (front ++ [c]).dropWhile p with
    | nil => simp [hEmpty] at hLast
    | cons d rest => rfl
  refine ⟨?_, hLast⟩
  rw [List.dropWhile_append, hSome]
  rcases List.eq_nil_or_concat more with rfl | ⟨others, d, rfl⟩
  · rw [List.append_nil]
    exact dropEndWhile_of_getLast? (by simpa [hLast] using hKept)
  · exact dropEndWhile_of_getLast? (by simpa using hMore d (by simp))

end

/-! ## Slashes behind a path -/

namespace PathState

variable {s : PathState}

/-- Without the empty segments at its end a path is the same, whether its last segment is complete
or not. -/
theorem dropWhile_done_directory (hDrive : s.mayBeDrive = false) (segment : List Char) :
    (s.directory segment).done.dropWhile List.isEmpty =
      (s.finish segment).done.dropWhile List.isEmpty := by
  unfold directory finish
  split_ifs
  · rw [push_of_no_drive (s.mayBeDrive_up.trans hDrive)]
    rfl
  · rw [push_of_no_drive hDrive]
    rfl
  · rfl

end PathState

/-- Slashes make empty segments. -/
theorem dropWhile_done_readSegments_replicate {s : PathState} (hDrive : s.mayBeDrive = false)
    (segment : List Char) (n : Nat) :
    (readSegments .special s segment (List.replicate n '/')).1.done.dropWhile List.isEmpty =
      (s.finish segment.reverse).done.dropWhile List.isEmpty := by
  induction n generalizing s segment with
  | zero => rfl
  | succ n ih =>
      have hNext : (s.directory segment.reverse).mayBeDrive = false :=
        (s.mayBeDrive_directory _).trans hDrive
      have hEmpty : (s.directory segment.reverse).finish [] =
          (s.directory segment.reverse).push [] :=
        PathState.finish_kept (by decide) (by decide)
      rw [List.replicate_succ, readSegments, if_neg (by decide), if_pos (by decide), ih hNext,
        List.reverse_nil, hEmpty, PathState.push_of_no_drive hNext]
      exact PathState.dropWhile_done_directory hDrive segment.reverse

/-- **Slashes behind a path make empty segments at its end**, and nothing else. -/
theorem dropWhile_done_readSegments_append {s : PathState} (hDrive : s.mayBeDrive = false)
    (segment cs : List Char) (n : Nat) :
    (readSegments .special s segment (cs ++ List.replicate n '/')).1.done.dropWhile List.isEmpty =
      (readSegments .special s segment cs).1.done.dropWhile List.isEmpty := by
  induction cs generalizing s segment with
  | nil => exact dropWhile_done_readSegments_replicate hDrive segment n
  | cons c cs ih =>
      rw [List.cons_append, readSegments, readSegments]
      split_ifs with hEnd hSlash hFile
      · rfl
      · exact ih ((s.mayBeDrive_directory _).trans hDrive) _
      · simp at hFile
      · exact ih hDrive _

theorem rdropWhile_readPathBelow_append (cs : List Char) (n : Nat) :
    (readPathBelow .special [] (cs ++ List.replicate n '/')).1.rdropWhile List.isEmpty =
      (readPathBelow .special [] cs).1.rdropWhile List.isEmpty := by
  have hDone := dropWhile_done_readSegments_append (s := ⟨[], false, false⟩) rfl [] cs n
  have hSegments (s : PathState) : s.segments .special = s.done.reverse := rfl
  simp only [readPathBelow, hSegments, List.rdropWhile_reverse]
  exact congrArg List.reverse hDone

theorem rdropWhile_readPathBehindHost_append (cs : List Char) (n : Nat) :
    (readPathBehindHost .special (cs ++ List.replicate n '/')).1.rdropWhile List.isEmpty =
      (readPathBehindHost .special cs).1.rdropWhile List.isEmpty := by
  cases cs with
  | cons c rest =>
      rw [List.cons_append, readPathBehindHost, readPathBehindHost]
      split_ifs with hSlash hOther
      · exact rdropWhile_readPathBelow_append rest n
      · simp at hOther
      · exact rdropWhile_readPathBelow_append (c :: rest) n
  | nil =>
      cases n with
      | zero => rfl
      | succ n =>
          have hBelow := rdropWhile_readPathBelow_append [] n
          rw [List.nil_append] at hBelow
          -- the first slash begins the path
          rw [List.nil_append, List.replicate_succ]
          exact hBelow.trans (by decide)

/-- **Slashes at the end of a clean path are its empty segments there.** -/
theorem dropEndWhile_chars {segments : List (List Char)} (h : IsClean .special segments) :
    dropEndWhile (· == '/') (Path.segments segments).chars =
      (Path.segments (segments.rdropWhile List.isEmpty)).chars := by
  induction segments using List.reverseRecOn with
  | nil => rfl
  | append_singleton segments last ih =>
      obtain ⟨hFront, hLast⟩ := List.forall_mem_append.mp h
      have hChars : (Path.segments (segments ++ [last])).chars =
          (Path.segments segments).chars ++ '/' :: last := by
        simp [Path.chars]
      rw [hChars, List.rdropWhile_concat]
      rcases List.eq_nil_or_concat last with rfl | ⟨front, c, rfl⟩
      · rw [List.isEmpty_nil, if_pos rfl, ← ih hFront]
        simp [dropEndWhile]
      · have hSlash : c ≠ '/' := by
          rintro rfl
          exact absurd (hLast _ List.mem_cons_self '/' (by simp)) (by decide)
        rw [if_neg (by simp), hChars, List.concat_eq_append, ← List.cons_append,
          ← List.append_assoc]
        refine dropEndWhile_of_getLast? ?_
        rw [List.getLast?_concat]
        simpa using hSlash

/-! ## Slashes behind an address -/

/-- Addresses at one place with one path, but for the empty segments at its end. -/
structure SameDirectory (u v : Url) : Prop where
  scheme : v.scheme = u.scheme
  authority : v.authority = u.authority
  segments : v.segments.rdropWhile List.isEmpty = u.segments.rdropWhile List.isEmpty

theorem splitScheme_append {cs scheme rest : List Char}
    (h : splitScheme cs = some (scheme, rest)) (more : List Char) :
    splitScheme (cs ++ more) = some (scheme, rest ++ more) := by
  cases cs with
  | nil => simp [splitScheme] at h
  | cons c cs =>
      simp only [splitScheme] at h
      split at h
      · next behind hDrop =>
          split_ifs at h with hAlpha
          obtain ⟨hScheme, rfl⟩ := Prod.mk.inj (Option.some.inj h)
          have hText := List.takeWhile_append_dropWhile (p := isSchemeChar) (l := c :: cs)
          rw [hDrop] at hText
          have hFront : ∀ d ∈ (c :: cs).takeWhile isSchemeChar, isSchemeChar d = true :=
            fun d hMem => List.mem_takeWhile_imp hMem
          generalize (c :: cs).takeWhile isSchemeChar = front at hText hFront hScheme
          have hMore : c :: (cs ++ more) = front ++ ':' :: (behind ++ more) := by
            rw [← List.cons_append, ← hText]
            simp
          have hRest := dropWhile_append_stop hFront (d := ':') (by decide) (behind ++ more)
          have hName := takeWhile_append_stop hFront (d := ':') (by decide) (behind ++ more)
          rw [← hMore] at hRest hName
          simp only [splitScheme, List.cons_append, hRest, hName, hAlpha, hScheme, if_true]
      · simp at h

/-- Where a host is needed it does not matter what follows the authority. -/
theorem readAuthority_special {scheme : List Char} (hKind : SchemeKind.of scheme = .special)
    (cs : List Char) (atEnd : Bool) :
    readAuthority scheme cs atEnd = readAuthority scheme cs true := by
  rw [readAuthority_eq, readAuthority_eq]
  by_cases hMark : cs = ['@']
  · -- there is no host behind the mark
    subst hMark
    have hNone : (splitPort false ((splitUser ['@']).getD ([], ['@'])).2).1 = [] := by decide
    simp [hNone, hKind]
  · simp [hMark]

theorem behindSlashes_append {scheme cs : List Char} {u : Url}
    (hKind : SchemeKind.of scheme = .special) (h : behindSlashes scheme cs = .ok u) (n : Nat) :
    ∃ v, behindSlashes scheme (cs ++ List.replicate n '/') = .ok v ∧ u.SameDirectory v := by
  obtain ⟨a, hRead, rfl⟩ := exists_of_behindSlashes h
  let stays : Char → Bool := (!endsAuthority (.of scheme) ·)
  let behind := cs.dropWhile stays
  have hFront : ∀ c ∈ cs.takeWhile stays, stays c = true := fun c hMem =>
    List.mem_takeWhile_imp hMem
  have hStop : ∀ d, (behind ++ List.replicate n '/').head? = some d → stays d = false := by
    intro d hFirst
    cases hBehind : behind with
    | nil =>
        rw [hBehind, List.nil_append] at hFirst
        obtain rfl := List.eq_of_mem_replicate (List.mem_of_mem_head? hFirst)
        simp [stays, endsAuthority, isSlash]
    | cons c others =>
        have hHead := List.head?_dropWhile_not stays cs
        obtain rfl : c = d := by simpa [hBehind] using hFirst
        simpa [behind, hBehind] using hHead
  have hText : cs ++ List.replicate n '/' =
      cs.takeWhile stays ++ (behind ++ List.replicate n '/') := by
    rw [← List.append_assoc, List.takeWhile_append_dropWhile]
  have hTake : (cs ++ List.replicate n '/').takeWhile stays = cs.takeWhile stays := by
    rw [hText, takeWhile_append_of_head? hFront hStop]
  have hDrop : (cs ++ List.replicate n '/').dropWhile stays = behind ++ List.replicate n '/' := by
    rw [hText, dropWhile_append_of_head? hFront hStop]
  rw [readAuthority_special hKind] at hRead
  refine ⟨complete scheme (some a)
    (.segments (readPathBehindHost (.of scheme) (behind ++ List.replicate n '/')).1)
    (readPathBehindHost (.of scheme) (behind ++ List.replicate n '/')).2.2, ?_, rfl, rfl, ?_⟩
  · rw [behindSlashes]
    dsimp only
    rw [hTake, hDrop, readAuthority_special hKind, hRead]
    rfl
  · have hSame := rdropWhile_readPathBehindHost_append behind n
    rw [← hKind] at hSame
    exact hSame

theorem significant_append_slashes {cs : List Char} {c : Char} (hLast : cs.getLast? = some c)
    (hAbove : 0x20 < c.toNat) (n : Nat) :
    significant (cs ++ List.replicate n '/') = significant cs ++ List.replicate n '/' := by
  have hKept : isOuterBlank c = false := by simpa [isOuterBlank] using hAbove
  have hSlashes : ∀ d ∈ List.replicate n '/', 0x20 < d.toNat := fun d hMem => by
    rw [List.eq_of_mem_replicate hMem]
    decide
  have hMore : ∀ d ∈ List.replicate n '/', isOuterBlank d = false := fun d hMem => by
    simpa [isOuterBlank] using hSlashes d hMem
  have hNone : ∀ d ∈ ([] : List Char), isOuterBlank d = false := by simp
  have hLonger := (trim_append hLast hKept hMore).1
  have hAlone := (trim_append hLast hKept hNone).1
  rw [List.append_nil, List.append_nil] at hAlone
  rw [significant, significant, hLonger, hAlone, List.filter_append, filter_not_isIgnored hSlashes]

/-- **Slashes behind an address with a common scheme lead to the same directory.** -/
theorem exists_parse_append_slashes {cs : List Char} {c : Char} {u : Url}
    (hLast : cs.getLast? = some c) (hAbove : 0x20 < c.toNat) (h : parse cs = .ok u)
    (hKind : u.kind = .special) (n : Nat) :
    ∃ v, parse (cs ++ List.replicate n '/') = .ok v ∧ u.SameDirectory v := by
  obtain ⟨rest, hSplit, hBehind⟩ := exists_behindSlashes_of_parse h hKind
  have hSplitMore : splitScheme (significant (cs ++ List.replicate n '/')) =
      some (u.scheme, rest ++ List.replicate n '/') := by
    rw [significant_append_slashes hLast hAbove, splitScheme_append hSplit]
  -- there is a host, so the slashes in front of it are not those behind
  have hSome : (rest.dropWhile (isSlash .special)).isEmpty = false := by
    cases hRest : rest.dropWhile (isSlash .special) with
    | cons d more => rfl
    | nil =>
        rw [hRest] at hBehind
        obtain ⟨a, hRead, -⟩ := exists_of_behindSlashes hBehind
        rw [Url.kind] at hKind
        simp [readAuthority_eq, hKind, splitUser, splitPort] at hRead
  rw [parse_of_special hSplitMore hKind, List.dropWhile_append, hSome]
  exact behindSlashes_append hKind hBehind n

end PagePreview.Url
