import PagePreview.Proofs.Url.Rereading

/-!
# Relative paths

A relative path is a text that needs no escapes, names no scheme and no host,
and in whose segments no full stops stand alone (`IsRelativePath`).  Below the
address of a directory such a text is put behind the address as it stands:
`join_relativePath` says which address is read, and `chars_below` which text
it has.

The reader of paths does nothing but cut such a text at its slashes
(`readSegments_kept`); that is an induction on what is left to be read, over
what has been read of the segment it is in.
-/

namespace PagePreview.Url

open Text

variable {kind : SchemeKind}

/-! ## The segments of a text -/

/-- The segments of a text with the slashes in front of them. -/
theorem chars_segments_splitOn (cs : List Char) :
    (Path.segments (cs.splitOn '/')).chars = '/' :: cs := by
  have hSlashes (segments : List (List Char)) (hSome : segments ≠ []) :
      (Path.segments segments).chars = '/' :: ['/'].intercalate segments := by
    induction segments with
    | nil => exact absurd rfl hSome
    | cons first others ih =>
        cases others with
        | nil => simp [Path.chars]
        | cons second more =>
            have hMore := ih (by simp)
            simp only [Path.chars, List.flatMap_cons] at hMore ⊢
            rw [hMore, List.intercalate_cons_cons]
            simp
  rw [hSlashes _ (List.splitOn_ne_nil '/' cs), List.intercalate_splitOn]

theorem mem_of_mem_segment {cs segment : List Char} (h : segment ∈ cs.splitOn '/') {c : Char}
    (hMem : c ∈ segment) : c ∈ '/' :: cs := by
  rw [← chars_segments_splitOn]
  exact List.mem_flatMap.mpr ⟨segment, h, List.mem_cons_of_mem _ hMem⟩

/-! ## Segments that stay as they are -/

/-- Segments that stand for themselves: none of them leads upwards or disappears. -/
def IsKept (segments : List (List Char)) : Prop :=
  ∀ segment ∈ segments, isDot segment = false ∧ isDoubleDot segment = false

namespace PathState

variable {s : PathState} {segment : List Char}

theorem push_of_no_drive (h : s.mayBeDrive = false) (segment : List Char) :
    s.push segment = { s with done := segment :: s.done } := by
  simp [push, h]

theorem directory_kept (hDot : isDot segment = false) (hDouble : isDoubleDot segment = false) :
    s.directory segment = s.push segment := by
  simp [directory, hDot, hDouble]

theorem finish_kept (hDot : isDot segment = false) (hDouble : isDoubleDot segment = false) :
    s.finish segment = s.push segment := by
  simp [finish, hDot, hDouble]

/-- An empty segment is no drive. -/
theorem head?_done_finish_nil (s : PathState) : (s.finish []).done.head? = some [] := by
  rw [finish_kept (by decide) (by decide), push, if_neg (by simp [isDriveLetter])]
  rfl

end PathState

theorem inPathSet_of_endsPath {c : Char} (h : endsPath c = true) : inPathSet c = true := by
  simp only [endsPath, Bool.or_eq_true, beq_iff_eq] at h
  rcases h with rfl | rfl <;> decide

/-- What stands for itself in a path is no blank. -/
theorem toNat_of_not_inPathSet {c : Char} (h : inPathSet c = false) : 0x20 < c.toNat := by
  simp only [inPathSet, inFragmentSet, Bool.or_eq_false_iff, beq_eq_false_iff_ne] at h
  exact lt_toNat_of_not_control (by tauto) (by tauto)

theorem isSlash_of_ne {c : Char} (hSlash : c ≠ '/') (hBackslash : c ≠ '\\') :
    isSlash kind c = false := by
  simp [isSlash, hSlash, hBackslash]

/-- **A path whose segments stay is cut at its slashes.** -/
theorem readSegments_kept (hKind : kind ≠ .file) {s : PathState} (hDrive : s.mayBeDrive = false)
    {segment cs : List Char} (hSegment : '/' ∉ segment)
    (hChars : ∀ c ∈ cs, inPathSet c = false ∧ c ≠ '\\')
    (hKept : IsKept ((segment.reverse ++ cs).splitOn '/')) :
    readSegments kind s segment cs =
      ({ s with done := ((segment.reverse ++ cs).splitOn '/').reverse ++ s.done }, []) := by
  have hWhole {segment : List Char} (h : '/' ∉ segment) :
      segment.reverse.splitOn '/' = [segment.reverse] :=
    List.splitOn_eq_singleton (by simpa using h)
  induction cs generalizing s segment with
  | nil =>
      rw [List.append_nil, hWhole hSegment] at hKept ⊢
      obtain ⟨hDot, hDouble⟩ := hKept _ List.mem_cons_self
      rw [readSegments, PathState.finish_kept hDot hDouble, PathState.push_of_no_drive hDrive]
      rfl
  | cons c cs ih =>
      obtain ⟨⟨hPath, hBackslash⟩, hRest⟩ := List.forall_mem_cons.mp hChars
      have hEnds : ¬endsPath c = true := by
        intro hEnds
        rw [inPathSet_of_endsPath hEnds] at hPath
        exact absurd hPath (by decide)
      rw [readSegments, if_neg hEnds]
      by_cases hSlash : c = '/'
      · -- the segment is complete
        subst hSlash
        have hCut : (segment.reverse ++ '/' :: cs).splitOn '/' =
            segment.reverse :: cs.splitOn '/' := by
          rw [List.splitOn_append_cons_self, hWhole hSegment]
          rfl
        rw [hCut] at hKept ⊢
        obtain ⟨hDot, hDouble⟩ := hKept _ List.mem_cons_self
        have hOthers : IsKept ((([] : List Char).reverse ++ cs).splitOn '/') :=
          fun l hMem => hKept l (List.mem_cons_of_mem _ hMem)
        have hNext := ih (s := { s with done := segment.reverse :: s.done }) hDrive
          List.not_mem_nil hRest hOthers
        rw [if_pos (by simp [isSlash]), PathState.directory_kept hDot hDouble,
          PathState.push_of_no_drive hDrive, hNext]
        simp
      · have hNext : (c :: segment).reverse ++ cs = segment.reverse ++ c :: cs := by simp
        have hLonger : '/' ∉ c :: segment := by simp [hSegment, Ne.symm hSlash]
        have hEncoded : percentEncode inPathSet [c] = [c] :=
          percentEncode_of_forall (by simpa using hPath)
        have hNoDrive : ¬(kind == .file && s.done.isEmpty &&
            isPlainDriveLetter segment.reverse) = true := by
          simp [hKind]
        rw [← hNext] at hKept ⊢
        rw [if_neg (by simp [isSlash_of_ne hSlash hBackslash]), hEncoded]
        dsimp only
        rw [if_neg hNoDrive]
        exact ih hDrive hLonger hRest hKept

/-- A path whose segments stay, behind the segments it begins below. -/
theorem readPathBelow_kept (hKind : kind ≠ .file) (base : List (List Char)) {cs : List Char}
    (hChars : ∀ c ∈ cs, inPathSet c = false ∧ c ≠ '\\') (hKept : IsKept (cs.splitOn '/')) :
    readPathBelow kind base cs = (base.reverse ++ cs.splitOn '/', false, []) := by
  have hFile : (kind == .file) = false := by simpa using hKind
  have hRead := readSegments_kept hKind (s := ⟨base, false, false⟩) rfl List.not_mem_nil hChars
    hKept
  rw [List.reverse_nil, List.nil_append] at hRead
  simp [readPathBelow, hRead, PathState.segments, hFile]

/-! ## Directories -/

/-- Behind a slash at the end of a path stands an empty segment. -/
theorem head?_done_readSegments (s : PathState) (segment : List Char) {cs : List Char}
    (h : ∀ c ∈ cs, endsPath c = false) :
    (readSegments kind s segment (cs ++ ['/'])).1.done.head? = some [] := by
  induction cs generalizing s segment with
  | nil =>
      rw [List.nil_append, readSegments, if_neg (by decide), if_pos (by simp [isSlash]),
        readSegments]
      exact PathState.head?_done_finish_nil _
  | cons c cs ih =>
      obtain ⟨hEnds, hRest⟩ := List.forall_mem_cons.mp h
      rw [List.cons_append, readSegments, if_neg (by simp [hEnds])]
      split_ifs
      · exact ih _ _ hRest
      · exact ih _ _ hRest
      · exact ih _ _ hRest

theorem exists_readPathBelow_slash (hKind : kind ≠ .file) (base : List (List Char))
    {cs : List Char} (h : ∀ c ∈ cs, endsPath c = false) :
    ∃ dirs, (readPathBelow kind base (cs ++ ['/'])).1 = dirs ++ [[]] := by
  rw [← List.getLast?_eq_some_iff]
  simp only [readPathBelow, PathState.segments, beq_iff_eq, if_neg hKind, List.getLast?_reverse]
  exact head?_done_readSegments _ _ h

/-- **A path with a slash at its end is that of a directory.** -/
theorem exists_readPathBehindHost_slash (hKind : kind = .special) {cs : List Char}
    (h : ∀ c ∈ cs, endsPath c = false) :
    ∃ dirs, (readPathBehindHost kind (cs ++ ['/'])).1 = dirs ++ [[]] := by
  subst hKind
  cases cs with
  | nil => exact ⟨[], by decide⟩
  | cons c cs =>
      rw [List.cons_append, readPathBehindHost]
      split_ifs with hSlash hOther
      · exact exists_readPathBelow_slash (by decide) [] fun d hMem =>
          h d (List.mem_cons_of_mem c hMem)
      · simp at hOther
      · exact exists_readPathBelow_slash (by decide) [] h

/-! ## Addresses with a common scheme -/

/-- What follows the slashes is an authority and a path. -/
theorem exists_of_behindSlashes {scheme cs : List Char} {u : Url}
    (h : behindSlashes scheme cs = .ok u) :
    let behind := cs.dropWhile (!endsAuthority (.of scheme) ·)
    ∃ a, readAuthority scheme (cs.takeWhile (!endsAuthority (.of scheme) ·)) behind.isEmpty =
        .ok a ∧
      u = complete scheme (some a) (.segments (readPathBehindHost (.of scheme) behind).1)
        (readPathBehindHost (.of scheme) behind).2.2 := by
  simp only [behindSlashes, bind, Except.bind] at h
  split at h
  · simp at h
  · next a hRead => exact ⟨a, hRead, (Except.ok.inj h).symm⟩

/-- All slashes behind a common scheme count as two. -/
theorem parse_of_special {cs scheme rest : List Char}
    (hSplit : splitScheme (significant cs) = some (scheme, rest))
    (hKind : SchemeKind.of scheme = .special) :
    parse cs = behindSlashes scheme (rest.dropWhile (isSlash .special)) := by
  have hDrop := congrArg (List.drop (rest.takeWhile (isSlash .special)).length)
    (List.takeWhile_append_dropWhile (p := isSlash .special) (l := rest))
  rw [List.drop_left] at hDrop
  have hSlash : (fun c => c == '/' || c == '\\') = isSlash .special := by
    funext c
    simp [isSlash, SchemeKind.allowsBackslash]
  simp only [parse, parseFrom, hSplit, withScheme, Option.filter_none, hKind, hSlash, hDrop]

theorem exists_behindSlashes_of_parse {cs : List Char} {u : Url} (h : parse cs = .ok u)
    (hKind : u.kind = .special) : ∃ rest, splitScheme (significant cs) = some (u.scheme, rest) ∧
      behindSlashes u.scheme (rest.dropWhile (isSlash .special)) = .ok u := by
  rw [Url.kind] at hKind
  cases hSplit : splitScheme (significant cs) with
  | none => simp [parse, parseFrom, hSplit] at h
  | some parts =>
      obtain ⟨scheme, rest⟩ := parts
      have hScheme : u.scheme = scheme := by
        simp only [parse, parseFrom, hSplit, withScheme, Option.filter_none] at h
        split at h
        · rw [(of_fileFrom h).1] at hKind
          exact absurd hKind (by decide)
        · next hOther => exact (of_otherUrl hOther h).1
        · next hSpecial => exact (of_behindSlashes (by simp [hSpecial]) h).1
      subst hScheme
      exact ⟨rest, rfl, (parse_of_special hSplit hKind).symm.trans h⟩

/-- An address with a common scheme has the path that is read behind its host. -/
theorem exists_path_of_parse {cs : List Char} {u : Url} (h : parse cs = .ok u)
    (hKind : u.kind = .special) :
    ∃ behind, u.path = .segments (readPathBehindHost .special behind).1 := by
  obtain ⟨rest, -, hBehind⟩ := exists_behindSlashes_of_parse h hKind
  obtain ⟨a, -, hUrl⟩ := exists_of_behindSlashes hBehind
  rw [Url.kind] at hKind
  rw [hKind] at hUrl
  exact ⟨_, congrArg Url.path hUrl⟩

/-- The path of an address with a common scheme is clean. -/
theorem exists_isClean_of_parse {cs : List Char} {u : Url} (h : parse cs = .ok u)
    (hKind : u.kind = .special) :
    ∃ segments, u.path = .segments segments ∧ IsClean .special segments := by
  obtain ⟨behind, hPath⟩ := exists_path_of_parse h hKind
  exact ⟨_, hPath, readPathBehindHost_clean behind⟩

/-- Nothing in a clean path ends it. -/
theorem endsPath_of_mem_chars {segments : List (List Char)} (h : IsClean kind segments) :
    ∀ c ∈ (Path.segments segments).chars, endsPath c = false := by
  intro c hMem
  obtain ⟨segment, hSegment, hMem⟩ := List.mem_flatMap.mp hMem
  obtain rfl | hMem := List.mem_cons.mp hMem
  · decide
  · have hChar := h segment hSegment c hMem
    rw [Bool.eq_false_iff]
    intro hEnds
    rw [isSegmentChar, inPathSet_of_endsPath hEnds] at hChar
    exact absurd hChar (by simp)

/-! ## Relative paths below a directory -/

/-- A text that is a path by itself, below the directory that it is given relative to. -/
structure IsRelativePath (cs : List Char) : Prop where
  ne_nil : cs ≠ []
  first : cs.head? ≠ some '/'
  chars : ∀ c ∈ cs, inPathSet c = false ∧ c ≠ '\\' ∧ c ≠ ':'
  segments : IsKept (cs.splitOn '/')

/-- A text without a colon has no scheme. -/
theorem splitScheme_of_not_mem {cs : List Char} (h : ':' ∉ cs) : splitScheme cs = none := by
  cases cs with
  | nil => rfl
  | cons c cs =>
      simp only [splitScheme]
      split
      · next rest hRest =>
          have hMem : ':' ∈ (c :: cs).dropWhile isSchemeChar := by simp [hRest]
          exact absurd ((List.dropWhile_suffix _).subset hMem) h
      · rfl

namespace IsRelativePath

variable {cs : List Char} (h : IsRelativePath cs)

include h

theorem significant_eq : significant cs = cs := by
  have hAbove : ∀ c ∈ cs, 0x20 < c.toNat := fun c hMem =>
    toNat_of_not_inPathSet (h.chars c hMem).1
  have hCut := significant_append h.ne_nil hAbove []
  simpa [significantRest, dropEndWhile] using hCut

theorem splitScheme_significant : splitScheme (significant cs) = none := by
  rw [h.significant_eq]
  exact splitScheme_of_not_mem fun hMem => (h.chars ':' hMem).2.2 rfl

theorem parse_eq_error : parse cs = .error .noBase := by
  simp only [parse, parseFrom, h.splitScheme_significant]

/-- **Below a directory a relative path is the rest of the path.** -/
theorem join_eq {base : Url} (hKind : base.kind = .special) {dirs : List (List Char)}
    (hPath : base.path = .segments (dirs ++ [[]])) :
    base.join cs = .ok
      ⟨base.scheme, base.authority, .segments (dirs ++ cs.splitOn '/'), none, none⟩ := by
  obtain ⟨c, rest, rfl⟩ := List.exists_cons_of_ne_nil h.ne_nil
  obtain ⟨hInPath, hBackslash, -⟩ := h.chars c List.mem_cons_self
  have hSlash : c ≠ '/' := by simpa using h.first
  have hMark : c ≠ '?' ∧ c ≠ '#' := by
    constructor <;> rintro rfl <;> exact absurd hInPath (by decide)
  have hNoFile : base.kind ≠ .file := by simp [hKind]
  have hRead := readPathBelow_kept hNoFile dirs.reverse
    (fun c hMem => ⟨(h.chars c hMem).1, (h.chars c hMem).2.1⟩) h.segments
  have hDirs : (base.segments.reverse).drop 1 = dirs.reverse := by simp [Url.segments, hPath]
  rw [join_of_no_scheme hKind hPath h.splitScheme_significant, h.significant_eq, relativeTo]
  · simp [hSlash, hBackslash, hDirs, hRead, complete, queryAndFragment]
  · intro other
    simp [hMark.1] at other
  · intro other
    simp [hMark.2] at other

end IsRelativePath

/-- Below a directory a relative path is put behind the address. -/
theorem chars_below {base : Url} {a : Authority} (hAuthority : base.authority = some a)
    {dirs : List (List Char)} (hPath : base.path = .segments (dirs ++ [[]]))
    (hTail : base.tail = []) (cs : List Char) :
    Url.chars ⟨base.scheme, base.authority, .segments (dirs ++ cs.splitOn '/'), none, none⟩ =
      base.chars ++ cs := by
  have hSplit := chars_segments_splitOn cs
  simp only [Path.chars] at hSplit
  have hBelow (path : Path) :
      Url.chars ⟨base.scheme, base.authority, path, none, none⟩ =
        base.scheme ++ ':' :: '/' :: '/' :: (a.chars ++ path.chars) := by
    rw [chars_eq, body, front, hAuthority]
    simp [tail]
  rw [hBelow, chars_eq, body_of_authority hAuthority, hPath, hTail]
  simp [Path.chars, hSplit]

end PagePreview.Url
