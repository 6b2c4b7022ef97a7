import PagePreview.Proofs.Url.Addresses

/-!
# Addresses can be read again

Every address that was read can be read again from its text
(`IsRead.exists_parse`), also if something is put behind it
(`IsRead.exists_parse_append`).  Only a host can be wrong in an address with a
scheme, so `IsRead` says of an address which host stands in its text, or why
no host is read there.
-/

namespace PagePreview.Url

open Text

/-! ## The text of an address -/

/-- The query and the fragment with their marks. -/
def tail (u : Url) : List Char := u.query.elim [] ('?' :: ·) ++ u.fragment.elim [] ('#' :: ·)

/-- What follows the scheme. -/
def body (u : Url) : List Char := u.front ++ (u.path.chars ++ u.tail)

theorem chars_eq (u : Url) : u.chars = u.scheme ++ ':' :: u.body := by
  rw [chars, body, tail]
  cases u.query <;> cases u.fragment <;> simp

theorem body_of_authority {u : Url} {a : Authority} (h : u.authority = some a) :
    u.body = '/' :: '/' :: (a.chars ++ (u.path.chars ++ u.tail)) := by
  simp [body, front, h]

theorem endsHost_segments_append (segments : List (List Char)) {rest : List Char}
    (h : EndsHost rest) : EndsHost ((Path.segments segments).chars ++ rest) := by
  cases segments with
  | nil => exact h
  | cons first others =>
      intro c hFirst
      obtain rfl : '/' = c := by simpa [Path.chars] using hFirst
      exact Or.inl rfl

theorem of_head?_tail {u : Url} {c : Char} (h : u.tail.head? = some c) : c = '?' ∨ c = '#' := by
  rw [tail] at h
  cases hQuery : u.query with
  | some q =>
      obtain rfl : '?' = c := by simpa [hQuery] using h
      exact Or.inl rfl
  | none =>
      cases hFragment : u.fragment with
      | some f =>
          obtain rfl : '#' = c := by simpa [hQuery, hFragment] using h
          exact Or.inr rfl
      | none => simp [hQuery, hFragment] at h

theorem endsHost_tail (u : Url) : EndsHost u.tail := fun _ hFirst => Or.inr (of_head?_tail hFirst)

theorem tail_ne_slash (u : Url) (rest : List Char) : u.tail ≠ '/' :: rest := by
  intro hTail
  exact absurd (of_head?_tail (c := '/') (by rw [hTail]; rfl)) (by decide)

/-! ## Addresses that were read -/

/-- A host in an address of a file that is read back. -/
structure IsFileHost (a : Authority) : Prop where
  read : fileHost a.chars = .ok a
  chars : ∀ c ∈ a.chars, isAuthorityChar c = true

/-- What follows the scheme of an address that was read: a host, that of a file, or something in
which no host is read. -/
inductive IsPlaced (u : Url) : Prop
  | host {a : Authority} {segments : List (List Char)} (hKind : u.kind ≠ .file)
      (hAuthority : u.authority = some a) (hRead : a.IsRead u.scheme)
      (hPath : u.path = .segments segments)
  | file {a : Authority} {segments : List (List Char)} (hKind : u.kind = .file)
      (hAuthority : u.authority = some a) (hRead : IsFileHost a)
      (hPath : u.path = .segments segments)
  | bare (hKind : u.kind = .other) (hIgnored : ∀ c ∈ u.body, isIgnored c = false)
      (hSlashes : ∀ rest, u.body ≠ '/' :: '/' :: rest)

structure IsRead (u : Url) : Prop where
  scheme : IsScheme u.scheme
  placed : IsPlaced u

/-! ## Reading the text -/

theorem exists_fileFrom_of_host {a : Authority} (ha : IsFileHost a) {rest : List Char}
    (hRest : EndsHost rest) : ∃ v, fileFrom none ('/' :: '/' :: (a.chars ++ rest)) = .ok v := by
  have hChars : ∀ c ∈ a.chars, (!endsAuthority .file c) = true := fun c hMem => by
    simp [not_endsAuthority (ha.chars c hMem)]
  have hTake := takeWhile_append_of_head? hChars (hRest.endsAuthority .file)
  simp only [endsAuthority] at hTake
  simp only [fileFrom, hTake, ha.read]
  rw [if_pos (by decide)]
  split_ifs
  · exact ⟨_, rfl⟩
  · simp only [bind, Except.bind]
    split_ifs <;> exact ⟨_, rfl⟩

theorem exists_otherUrl {scheme cs : List Char} (h : ∀ rest, cs ≠ '/' :: '/' :: rest) :
    ∃ v, otherUrl scheme cs = .ok v := by
  unfold otherUrl
  split
  · next rest => exact absurd rfl (h rest)
  · exact ⟨_, rfl⟩
  · exact ⟨_, rfl⟩

/-- A text that does not begin with two slashes does not when its end is cut either. -/
theorem significantRest_ne_slashes {cs : List Char} (hIgnored : ∀ c ∈ cs, isIgnored c = false)
    (hSlashes : ∀ rest, cs ≠ '/' :: '/' :: rest) (rest : List Char) :
    significantRest cs ≠ '/' :: '/' :: rest := by
  have hEnd : cs = dropEndWhile isOuterBlank cs ++ (cs.reverse.takeWhile isOuterBlank).reverse := by
    rw [dropEndWhile, ← List.reverse_append, List.takeWhile_append_dropWhile, List.reverse_reverse]
  have hKept : significantRest cs = dropEndWhile isOuterBlank cs := by
    refine List.filter_eq_self.mpr fun c hMem => ?_
    have hOld : c ∈ cs := by
      rw [hEnd]
      exact List.mem_append_left _ hMem
    simp [hIgnored c hOld]
  intro hCut
  rw [hKept] at hCut
  rw [hCut] at hEnd
  exact hSlashes _ hEnd

/-- An address with a host is read again with that host. -/
theorem exists_parse_of_host {u : Url} {a : Authority} {segments : List (List Char)}
    (hScheme : IsScheme u.scheme) (hKind : u.kind ≠ .file) (hAuthority : u.authority = some a)
    (hRead : a.IsRead u.scheme) (hPath : u.path = .segments segments) :
    ∃ v, parse u.chars = .ok v ∧ v.scheme = u.scheme ∧ v.authority = u.authority := by
  rw [chars_eq, body_of_authority hAuthority, hPath, hAuthority]
  exact exists_parse_host hRead hScheme hKind (endsHost_segments_append segments u.endsHost_tail)

namespace IsRead

variable {u : Url} (h : u.IsRead)

include h

/-- **Every address that was read can be read again.** -/
theorem exists_parse : ∃ v, parse u.chars = .ok v := by
  cases h.placed with
  | host hKind hAuthority hRead hPath =>
      obtain ⟨v, hParse, -⟩ := exists_parse_of_host h.scheme hKind hAuthority hRead hPath
      exact ⟨v, hParse⟩
  | @file a segments hKind hAuthority hRead hPath =>
      have hEnds := (endsHost_segments_append segments u.endsHost_tail).significantRest
      have hCut := h.scheme.splitScheme_significant (toNat_of_mem_slashes hRead.chars)
        (u.path.chars ++ u.tail)
      rw [kind] at hKind
      rw [← hPath] at hEnds
      obtain ⟨v, hRead⟩ := exists_fileFrom_of_host hRead hEnds
      refine ⟨v, ?_⟩
      rw [chars_eq, body_of_authority hAuthority]
      simp only [List.cons_append] at hCut
      simpa only [parse, parseFrom, hCut, withScheme, Option.filter_none, hKind] using hRead
  | bare hKind hIgnored hSlashes =>
      have hCut : splitScheme (significant (u.scheme ++ ':' :: u.body)) =
          some (u.scheme, significantRest u.body) :=
        h.scheme.splitScheme_significant (List.forall_mem_nil _) u.body
      obtain ⟨v, hRead⟩ : ∃ v, otherUrl u.scheme (significantRest u.body) = .ok v :=
        exists_otherUrl (significantRest_ne_slashes hIgnored hSlashes)
      refine ⟨v, ?_⟩
      rw [kind] at hKind
      rw [chars_eq]
      simpa only [parse, parseFrom, hCut, withScheme, Option.filter_none, hKind] using hRead

/-- An address of a common scheme has a host. -/
theorem exists_host (hKind : u.kind = .special) : ∃ a segments, u.authority = some a ∧
    a.IsRead u.scheme ∧ u.path = .segments segments := by
  cases h.placed with
  | @host a segments _ hAuthority hRead hPath => exact ⟨a, segments, hAuthority, hRead, hPath⟩
  | file hFile => simp [hKind] at hFile
  | bare hOther => simp [hKind] at hOther

/-- **An address that ends with its path is read with the same host whatever stands behind it.** -/
theorem exists_parse_append (hKind : u.kind = .special) (hPath : u.path ≠ .segments [])
    (hTail : u.tail = []) (rest : List Char) :
    ∃ v, parse (u.chars ++ rest) = .ok v ∧ v.scheme = u.scheme ∧ v.authority = u.authority := by
  obtain ⟨a, segments, hAuthority, hRead, hSegments⟩ := h.exists_host hKind
  obtain ⟨first, others, rfl⟩ := List.exists_cons_of_ne_nil (l := segments) fun hEmpty =>
    hPath (by rw [hSegments, hEmpty])
  have hEnds : EndsHost (u.path.chars ++ rest) := by
    intro c hFirst
    obtain rfl : '/' = c := by simpa [hSegments, Path.chars] using hFirst
    exact Or.inl rfl
  have hText : u.chars ++ rest =
      u.scheme ++ ':' :: '/' :: '/' :: (a.chars ++ (u.path.chars ++ rest)) := by
    simp [chars_eq, body_of_authority hAuthority, hTail]
  rw [hText, hAuthority]
  exact exists_parse_host hRead h.scheme (by rw [← kind, hKind]; simp) hEnds

end IsRead

/-! ## What is read -/

theorem isIgnored_of_not_control {c : Char} (h : inControlSet c = false) : isIgnored c = false := by
  simp only [isIgnored, Bool.or_eq_false_iff, beq_eq_false_iff_ne]
  refine ⟨⟨?_, ?_⟩, ?_⟩ <;> rintro rfl <;> exact absurd h (by decide)

theorem isIgnored_of_fragment {c : Char} (h : inFragmentSet c = false) : isIgnored c = false := by
  simp only [inFragmentSet, Bool.or_eq_false_iff] at h
  exact isIgnored_of_not_control (by tauto)

theorem isIgnored_of_query {c : Char} (h : inQuerySet c = false) : isIgnored c = false := by
  simp only [inQuerySet, Bool.or_eq_false_iff] at h
  exact isIgnored_of_not_control (by tauto)

theorem isIgnored_of_isSegmentChar {kind : SchemeKind} {c : Char}
    (h : isSegmentChar kind c = true) : isIgnored c = false := by
  simp only [isSegmentChar, inPathSet, Bool.and_eq_true, Bool.not_eq_true',
    Bool.or_eq_false_iff] at h
  exact isIgnored_of_fragment (by tauto)

/-- The query and the fragment have no control characters. -/
theorem tail_complete (scheme : List Char) (a : Option Authority) (path : Path) (cs : List Char) :
    ∀ c ∈ (complete scheme a path cs).tail, isIgnored c = false := by
  have hFragment (rest : List Char) : ∀ c ∈ '#' :: readFragment rest, isIgnored c = false :=
    List.forall_mem_cons.mpr ⟨by decide, fun c hMem =>
      isIgnored_of_fragment (forall_mem_percentEncode_not (by decide) c hMem)⟩
  intro c hMem
  simp only [tail, complete, queryAndFragment] at hMem
  generalize hSet : (if SchemeKind.of scheme == .other then inQuerySet else inSpecialQuerySet) = set
    at hMem
  have hQuery (rest : List Char) : ∀ c ∈ '?' :: percentEncode set rest, isIgnored c = false := by
    refine List.forall_mem_cons.mpr ⟨by decide, fun c hMem => ?_⟩
    split_ifs at hSet <;> subst hSet
    · exact isIgnored_of_query (forall_mem_percentEncode_not (by decide) c hMem)
    · have hKept := forall_mem_percentEncode_not (by decide) c hMem
      simp only [inSpecialQuerySet, Bool.or_eq_false_iff] at hKept
      exact isIgnored_of_query hKept.1
  split at hMem
  · obtain hMem | hMem := List.mem_append.mp hMem
    · exact hQuery _ c hMem
    · dsimp only at hMem
      split at hMem
      · exact hFragment _ c hMem
      · simp at hMem
  · obtain hMem | hMem := List.mem_append.mp hMem
    · simp at hMem
    · dsimp only at hMem
      split at hMem
      · exact hFragment _ c hMem
      · simp at hMem

/-- Without a host nothing stands in front of the path but perhaps a segment that disappears. -/
theorem front_of_no_authority {u : Url} (h : u.authority = none) : u.front = [] ∨
    u.front = ['/', '.'] := by
  rw [front, h]
  split
  · next hSome => simp at hSome
  · exact Or.inr rfl
  · exact Or.inl rfl

/-- No host is read in an address without one. -/
theorem isPlaced_segments {u : Url} {segments : List (List Char)} (hKind : u.kind = .other)
    (hAuthority : u.authority = none) (hPath : u.path = .segments segments)
    (hClean : IsClean .other segments) (hTail : ∀ c ∈ u.tail, isIgnored c = false) :
    u.IsPlaced := by
  refine .bare hKind (fun c hMem => ?_) fun rest hBody => ?_
  · simp only [body, List.mem_append, hPath, Path.chars, List.mem_flatMap, List.mem_cons] at hMem
    obtain hMem | ⟨segment, hSegment, rfl | hMem⟩ | hMem := hMem
    · obtain hFront | hFront := front_of_no_authority hAuthority
      · simp [hFront] at hMem
      · obtain rfl | rfl : c = '/' ∨ c = '.' := by simpa [hFront] using hMem
        · decide
        · decide
    · decide
    · exact isIgnored_of_isSegmentChar (hClean segment hSegment c hMem)
    · exact hTail c hMem
  · rw [body, front, hAuthority, hPath] at hBody
    match segments with
    | [] => exact u.tail_ne_slash ('/' :: rest) (by simpa [Path.chars] using hBody)
    | [[]] => exact u.tail_ne_slash rest (by simpa [Path.chars] using hBody)
    | [] :: second :: more => simp at hBody
    | (c :: cs) :: more =>
        obtain ⟨rfl, _⟩ : c = '/' ∧ _ := by simpa [Path.chars] using hBody
        exact absurd (hClean _ List.mem_cons_self '/' List.mem_cons_self) (by decide)

theorem isPlaced_plain {u : Url} {text : List Char} (hKind : u.kind = .other)
    (hAuthority : u.authority = none) (hPath : u.path = .plain text)
    (hText : ∀ c ∈ text, inControlSet c = false) (hSlash : text.head? ≠ some '/')
    (hTail : ∀ c ∈ u.tail, isIgnored c = false) : u.IsPlaced := by
  have hFront : u.front = [] := by rw [front, hAuthority, hPath]
  refine .bare hKind (fun c hMem => ?_) fun rest hBody => ?_
  · simp only [body, hFront, hPath, Path.chars, List.nil_append, List.mem_append] at hMem
    obtain hMem | hMem := hMem
    · exact isIgnored_of_not_control (hText c hMem)
    · exact hTail c hMem
  · simp only [body, hFront, hPath, Path.chars, List.nil_append] at hBody
    cases text with
    | nil => exact u.tail_ne_slash ('/' :: rest) hBody
    | cons c text =>
        obtain ⟨rfl, _⟩ := List.cons.inj hBody
        exact hSlash rfl

section

variable {scheme cs : List Char} {u : Url}

theorem of_behindSlashes (hKind : SchemeKind.of scheme ≠ .file)
    (h : behindSlashes scheme cs = .ok u) : u.scheme = scheme ∧ u.IsPlaced := by
  simp only [behindSlashes, bind, Except.bind] at h
  split at h
  · simp at h
  · next a hRead =>
      obtain rfl := Except.ok.inj h
      exact ⟨rfl, .host hKind rfl (.of_readAuthority hRead) rfl⟩

theorem of_otherUrl (hKind : SchemeKind.of scheme = .other) (h : otherUrl scheme cs = .ok u) :
    u.scheme = scheme ∧ u.IsPlaced := by
  unfold otherUrl at h
  split at h
  · exact of_behindSlashes (by simp [hKind]) h
  · next rest _ =>
      obtain rfl := Except.ok.inj h
      exact ⟨rfl, isPlaced_segments hKind rfl rfl (readPathBelow_clean (by simp [IsClean]) rest)
        (tail_complete _ _ _ _)⟩
  · next hSlashes hSlash =>
      obtain rfl := Except.ok.inj h
      refine ⟨rfl, isPlaced_plain hKind rfl rfl (forall_mem_percentEncode_not (by decide)) ?_
        (tail_complete _ _ _ _)⟩
      refine head?_percentEncode_ne (by decide) fun hFirst => ?_
      cases cs with
      | nil => simp at hFirst
      | cons c cs =>
          rw [List.takeWhile_cons] at hFirst
          split_ifs at hFirst
          · obtain rfl := Option.some.inj hFirst
            exact hSlash cs rfl
          · simp at hFirst

/-! ### Files -/

theorem isFileHost_noHost : IsFileHost noHost where
  read := by decide
  chars := by simp [noHost, Authority.chars, Host.chars]

theorem isFileHost_of_fileHost {a : Authority} (h : fileHost cs = .ok a) : IsFileHost a := by
  unfold fileHost at h
  split_ifs at h with hEmpty
  · obtain rfl := Except.ok.inj h
    exact isFileHost_noHost
  · cases hHost : specialHost cs with
    | error e => simp [hHost, bind, Except.bind] at h
    | ok host =>
        simp only [hHost, bind, Except.bind, pure, Except.pure] at h
        split_ifs at h with hLocal
        · obtain rfl := Except.ok.inj h
          exact isFileHost_noHost
        · obtain rfl := Except.ok.inj h
          have hChars : Authority.chars { host := host } = host.chars := by simp [Authority.chars]
          refine ⟨?_, ?_⟩
          · rw [hChars, fileHost, if_neg (by simpa using chars_ne_nil_of_specialHost hHost),
              specialHost_chars hHost]
            simp only [bind, Except.bind, if_neg hLocal]
            rfl
          · rw [hChars]
            exact fun c hMem => (hostText_of_specialHost hHost).isAuthorityChar_of_mem hMem

theorem isPlaced_fileUrl {a : Authority} (ha : IsFileHost a) (segments : List (List Char))
    (sawDrive : Bool) (rest : List Char) : (fileUrl a segments sawDrive rest).IsPlaced := by
  cases sawDrive with
  | true => exact .file rfl rfl isFileHost_noHost rfl
  | false => exact .file rfl rfl ha rfl

theorem of_fileFrom (h : fileFrom none cs = .ok u) : u.scheme = fileScheme ∧ u.IsPlaced := by
  have hBelow (segments : List (List Char)) (sawDrive : Bool) (rest : List Char)
      (h : (.ok (fileUrl noHost segments sawDrive rest) : Except Fault Url) = .ok u) :
      u.scheme = fileScheme ∧ u.IsPlaced := by
    obtain rfl := Except.ok.inj h
    exact ⟨rfl, isPlaced_fileUrl isFileHost_noHost _ _ _⟩
  unfold fileFrom at h
  split at h
  · next a b rest =>
      dsimp only at h
      split_ifs at h with hTwo hDrive hOne
      · exact hBelow _ _ _ h
      · generalize hHost : fileHost _ = result at h
        cases result with
        | error e => simp [bind, Except.bind] at h
        | ok a =>
            simp only [bind, Except.bind] at h
            split_ifs at h
            · exact hBelow _ _ _ h
            · obtain rfl := Except.ok.inj h
              exact ⟨rfl, isPlaced_fileUrl (isFileHost_of_fileHost hHost) _ _ _⟩
      · exact hBelow _ _ _ h
      · exact hBelow _ _ _ h
  · dsimp only at h
    split_ifs at h
    · exact hBelow _ _ _ h
    · exact hBelow _ _ _ h
  · exact hBelow _ _ _ h

/-! ### Relative addresses -/

theorem of_relativeTo {base : Url} {a : Authority} {segments : List (List Char)}
    (hKind : base.kind ≠ .file) (hAuthority : base.authority = some a)
    (hRead : a.IsRead base.scheme) (hPath : base.path = .segments segments)
    (h : relativeTo base cs = .ok u) :
    u.scheme = base.scheme ∧ u.IsPlaced := by
  unfold relativeTo at h
  split at h
  · obtain rfl := Except.ok.inj h
    exact ⟨rfl, .host hKind hAuthority hRead hPath⟩
  · obtain rfl := Except.ok.inj h
    exact ⟨rfl, .host hKind hAuthority hRead hPath⟩
  · obtain rfl := Except.ok.inj h
    exact ⟨rfl, .host hKind hAuthority hRead hPath⟩
  · next c rest _ _ =>
      dsimp only at h
      split_ifs at h
      · split at h
        · exact of_behindSlashes hKind h
        · exact of_behindSlashes hKind h
      · obtain rfl := Except.ok.inj h
        exact ⟨rfl, .host hKind hAuthority hRead rfl⟩
      · obtain rfl := Except.ok.inj h
        exact ⟨rfl, .host hKind hAuthority hRead rfl⟩

/-- A text without a scheme is read behind that of the base. -/
theorem join_of_no_scheme {base : Url} {segments : List (List Char)} (hKind : base.kind = .special)
    (hPath : base.path = .segments segments) (hSplit : splitScheme (significant cs) = none) :
    base.join cs = relativeTo base (significant cs) := by
  have hHierarchical : base.isHierarchical = true := by rw [isHierarchical, hPath]
  have hFile : (base.kind == .file) = false := by simp [hKind]
  simp only [join, parseFrom, hSplit, hHierarchical, hFile, Bool.not_true, Bool.false_eq_true,
    if_false]
  split
  · next rest hText =>
      rw [hText]
      rfl
  · rfl

end

/-! ### All addresses -/

theorem isScheme_fileScheme : IsScheme fileScheme where
  first := by decide
  chars := List.all_eq_true.mp (by decide)
  lower := by decide

namespace IsRead

variable {cs : List Char} {u : Url}

theorem of_withScheme {scheme : List Char} (hScheme : IsScheme scheme)
    (h : withScheme none scheme cs = .ok u) : u.IsRead := by
  unfold withScheme at h
  dsimp only at h
  split at h
  · obtain ⟨hFile, hPlaced⟩ := of_fileFrom h
    exact ⟨hFile ▸ isScheme_fileScheme, hPlaced⟩
  · next hKind =>
      obtain ⟨rfl, hPlaced⟩ := of_otherUrl hKind h
      exact ⟨hScheme, hPlaced⟩
  · next hKind =>
      obtain ⟨rfl, hPlaced⟩ := of_behindSlashes (by simp [hKind]) h
      exact ⟨hScheme, hPlaced⟩

/-- **What stands for itself is read as an address of this form.** -/
theorem of_parse (h : parse cs = .ok u) : u.IsRead := by
  cases hSplit : splitScheme (significant cs) with
  | none => simp [parse, parseFrom, hSplit] at h
  | some parts =>
      simp only [parse, parseFrom, hSplit] at h
      exact of_withScheme (.of_splitScheme hSplit) h

/-- Relative to an address of a common scheme a text is read as it is read on its own, or the
scheme is that of the address. -/
theorem join_cases {base : Url} (hBase : base.IsRead) (hKind : base.kind = .special)
    (cs : List Char) : join base cs = parse cs ∨
      (∀ u, join base cs = .ok u → u.scheme = base.scheme ∧ u.IsPlaced) ∧
        ∀ u, parse cs = .ok u → u.scheme = base.scheme := by
  obtain ⟨a, segments, hAuthority, hRead, hPath⟩ := hBase.exists_host hKind
  have hFile : base.kind ≠ .file := by simp [hKind]
  have hRelative (cs : List Char) (u : Url) (h : relativeTo base cs = .ok u) :
      u.scheme = base.scheme ∧ u.IsPlaced := of_relativeTo hFile hAuthority hRead hPath h
  cases hSplit : splitScheme (significant cs) with
  | some parts =>
      obtain ⟨scheme, rest⟩ := parts
      simp only [join, parse, parseFrom, hSplit]
      by_cases hSame : base.scheme = scheme
      · subst hSame
        rw [kind] at hKind
        simp only [withScheme, hKind, Option.filter_some, beq_self_eq_true, if_true,
          Option.filter_none]
        refine Or.inr ⟨fun u h => ?_, fun u h => (of_behindSlashes hFile h).1⟩
        split_ifs at h
        · exact hRelative rest u h
        · exact of_behindSlashes hFile h
      · have hOther : (some base).filter (·.scheme == scheme) = none := by
          rw [Option.filter_some, if_neg (by simpa using hSame)]
        refine Or.inl ?_
        simp only [withScheme, hOther, Option.filter_none]
  | none =>
      rw [join_of_no_scheme hKind hPath hSplit]
      exact Or.inr ⟨hRelative _, by simp [parse, parseFrom, hSplit]⟩

/-- **So is what is given relative to an address of a common scheme.** -/
theorem of_join {base : Url} (hBase : base.IsRead) (hKind : base.kind = .special)
    (h : join base cs = .ok u) : u.IsRead := by
  obtain hParse | ⟨hJoined, _⟩ := hBase.join_cases hKind cs
  · exact of_parse (hParse ▸ h)
  · obtain ⟨hScheme, hPlaced⟩ := hJoined u h
    exact ⟨hScheme ▸ hBase.scheme, hPlaced⟩

end IsRead

end PagePreview.Url
