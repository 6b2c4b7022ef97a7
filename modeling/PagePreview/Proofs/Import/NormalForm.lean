import PagePreview.Proofs.Import.Origins
import PagePreview.Proofs.Url.Directories

/-!
# The normal form of an origin

An origin with a web scheme is an address without a query and a fragment whose
path is that of a directory: it ends with one slash, since the empty segments at
the end of the path that was given are replaced by a single one (`ofUrl`).

So an origin is read back from its text, and slashes behind the text that it was
given in make no difference, wherever in the address they come to stand
(`parse_normalForm`).
-/

namespace PagePreview.Import

open Text

namespace Origin

/-- The segments of the directory that an address leads to. -/
def directorySegments (u : Url) : List (List Char) := u.segments.rdropWhile List.isEmpty ++ [[]]

/-- The origin at the directory that an address leads to. -/
def ofUrl (u : Url) : Origin :=
  ⟨⟨u.scheme, u.authority, .segments (directorySegments u), none, none⟩⟩

theorem ofUrl_eq_of_sameDirectory {u v : Url} (h : u.SameDirectory v) : ofUrl v = ofUrl u := by
  rw [ofUrl, ofUrl, directorySegments, directorySegments, h.scheme, h.authority, h.segments]

/-- An origin is its own directory. -/
theorem ofUrl_base_ofUrl (u : Url) : ofUrl (ofUrl u).base = ofUrl u := by
  have hSame : directorySegments (ofUrl u).base = directorySegments u := by
    show (directorySegments u).rdropWhile List.isEmpty ++ [[]] = directorySegments u
    rw [directorySegments, List.rdropWhile_concat_pos _ _ _ rfl, List.rdropWhile_idempotent]
  rw [ofUrl, hSame]
  rfl

section

variable {u : Url} {segments : List (List Char)}

theorem directorySegments_of_path (hPath : u.path = .segments segments) :
    directorySegments u = segments.rdropWhile List.isEmpty ++ [[]] := by
  rw [directorySegments, Url.segments, hPath]

/-- What holds of the segments of a path holds of those of its directory. -/
theorem forall_mem_directorySegments {P : List Char → Prop} (hPath : u.path = .segments segments)
    (h : ∀ segment ∈ segments, P segment) (hEmpty : P []) :
    ∀ segment ∈ directorySegments u, P segment := by
  rw [directorySegments_of_path hPath, List.forall_mem_append]
  exact ⟨fun segment hMem => h segment ((List.rdropWhile_prefix _ _).subset hMem),
    List.forall_mem_singleton.mpr hEmpty⟩

/-- The path of a directory is that of the address with one slash at its end. -/
theorem directoryPath_chars (hPath : u.path = .segments segments)
    (hClean : Url.IsClean .special segments) :
    directoryPath u.path.chars = (Url.Path.segments (directorySegments u)).chars := by
  rw [directoryPath, hPath, Url.dropEndWhile_chars hClean, directorySegments_of_path hPath]
  simp [Url.Path.chars]

/-- **The origin that is read is the directory of the address.** -/
theorem parse_of_url {input : String} (hRead : Url.parse (trimChars input.toList) = .ok u)
    (hKind : u.kind = .special) : parse input = .ok (ofUrl u) := by
  obtain ⟨behind, hPath⟩ := Url.exists_path_of_parse hRead hKind
  have hClean : Url.IsClean .special (directorySegments u) := forall_mem_directorySegments hPath
    (Url.readPathBehindHost_clean behind) (by simp)
  have hKept : Url.IsKept (directorySegments u) := forall_mem_directorySegments hPath
    (Url.readPathBehindHost_isKept (by decide) behind) (by decide)
  have hDirectory := Url.readPathBehindHost_chars (by simp [directorySegments]) hClean hKept
  rw [← directoryPath_chars hPath (Url.readPathBehindHost_clean behind)] at hDirectory
  simp only [parse, hRead]
  split
  · next hPlain => simp [hPath] at hPlain
  · rw [hKind, hDirectory]
    rfl

end

/-- An origin with a web scheme is the directory of the address in its text. -/
theorem exists_ofUrl_of_parse {input : String} {o : Origin} (h : parse input = .ok o)
    (hWeb : o.IsWeb) : ∃ u, Url.parse (trimChars input.toList) = .ok u ∧ u.kind = .special ∧
      o = ofUrl u := by
  obtain ⟨u, hRead, hBase⟩ := exists_of_parse h
  have hKind : u.kind = .special := by
    have hOwn := hWeb.kind_eq
    rwa [hBase] at hOwn
  exact ⟨u, hRead, hKind, Except.ok.inj (h.symm.trans (parse_of_url hRead hKind))⟩

/-! ## Reading an origin again -/

section

variable {input : String} {o : Origin}

/-- **The path of an origin ends with one slash.** -/
theorem exists_path_chars (h : parse input = .ok o) (hWeb : o.IsWeb) :
    ∃ front, o.base.path.chars = front ++ ['/'] ∧ front.getLast? ≠ some '/' := by
  obtain ⟨u, hRead, hKind, rfl⟩ := exists_ofUrl_of_parse h hWeb
  obtain ⟨behind, hPath⟩ := Url.exists_path_of_parse hRead hKind
  refine ⟨dropEndWhile (· == '/') u.path.chars,
    (directoryPath_chars hPath (Url.readPathBehindHost_clean behind)).symm, fun hSlash => ?_⟩
  have hHead := List.head?_dropWhile_not (· == '/') u.path.chars.reverse
  rw [dropEndWhile, List.getLast?_reverse] at hSlash
  simp [hSlash] at hHead

/-- **An origin is read back from its address.** -/
theorem parse_base_chars (h : parse input = .ok o) (hWeb : o.IsWeb) :
    Url.parse o.base.chars = .ok o.base := by
  obtain ⟨u, hRead, hKind, rfl⟩ := exists_ofUrl_of_parse h hWeb
  obtain ⟨behind, hPath⟩ := Url.exists_path_of_parse hRead hKind
  have hDirectory := isDirectory_of_parse h hWeb
  obtain ⟨a, _, hAuthority, hHost, -⟩ := hDirectory.base.exists_host hDirectory.kind
  have hClean : Url.IsClean .special (directorySegments u) := forall_mem_directorySegments hPath
    (Url.readPathBehindHost_clean behind) (by simp)
  have hKept : Url.IsKept (directorySegments u) := forall_mem_directorySegments hPath
    (Url.readPathBehindHost_isKept (by decide) behind) (by decide)
  exact Url.parse_chars_of_host hDirectory.kind hDirectory.base.scheme hAuthority hHost rfl
    (by simp [directorySegments]) hClean hKept rfl rfl

/-- There are no blanks around the text of an origin. -/
theorem trimChars_base_chars (h : parse input = .ok o) (hWeb : o.IsWeb) :
    trimChars o.base.chars = o.base.chars := by
  have hDirectory := isDirectory_of_parse h hWeb
  obtain ⟨c, scheme, hScheme, hAlpha⟩ := hDirectory.base.scheme.exists_cons
  obtain ⟨front, hPath, -⟩ := exists_path_chars h hWeb
  have hLast : o.base.chars.getLast? = some '/' := by
    rw [Url.chars_eq, Url.body, hDirectory.tail, hPath, List.append_nil, ← List.append_assoc,
      ← List.cons_append, ← List.append_assoc, List.getLast?_concat]
  have hFirst : o.base.chars.dropWhile isBlank = o.base.chars := by
    rw [Url.chars_eq, hScheme]
    simp [not_isBlank_of_isAlpha hAlpha]
  rw [trimChars, hFirst, dropEndWhile_of_getLast? (by simp [hLast]; decide)]

theorem parse_toString (h : parse input = .ok o) (hWeb : o.IsWeb) :
    parse o.toString = .ok o := by
  obtain ⟨u, -, -, hOwn⟩ := exists_ofUrl_of_parse h hWeb
  have hRead : Url.parse (trimChars o.toString.toList) = .ok o.base := by
    rw [toString, String.toList_ofList, trimChars_base_chars h hWeb, parse_base_chars h hWeb]
  rw [parse_of_url hRead hWeb.kind_eq, hOwn, ofUrl_base_ofUrl]

/-- **Slashes behind an origin make no difference.** -/
theorem parse_append_slashes (h : parse input = .ok o) (hWeb : o.IsWeb) {c : Char}
    (hLast : input.toList.getLast? = some c) (hBlank : isBlank c = false) (hAbove : 0x20 ≤ c.toNat)
    (n : Nat) : parse (input ++ String.ofList (List.replicate n '/')) = .ok o := by
  obtain ⟨u, hRead, hKind, rfl⟩ := exists_ofUrl_of_parse h hWeb
  have hNoSpace : 0x20 < c.toNat := by
    refine lt_of_le_of_ne hAbove fun hSpace => ?_
    simp [isBlank, ← hSpace] at hBlank
  have hSlashes : ∀ d ∈ List.replicate n '/', isBlank d = false := fun d hMem => by
    rw [List.eq_of_mem_replicate hMem]
    decide
  have hLonger := (Url.trim_append hLast hBlank hSlashes).1
  have hNone : ∀ d ∈ ([] : List Char), isBlank d = false := by simp
  obtain ⟨hAlone, hTrimmed⟩ := Url.trim_append hLast hBlank hNone
  rw [List.append_nil, List.append_nil, ← trimChars] at hAlone
  rw [← trimChars, ← hAlone] at hLonger
  rw [← hAlone] at hTrimmed
  obtain ⟨v, hReadMore, hSame⟩ := Url.exists_parse_append_slashes hTrimmed hNoSpace hRead hKind n
  have hKindMore : v.kind = .special := by rw [Url.kind, hSame.scheme, ← Url.kind, hKind]
  have hText : (input ++ String.ofList (List.replicate n '/')).toList =
      input.toList ++ List.replicate n '/' := by simp
  rw [parse_of_url (by rw [hText, hLonger]; exact hReadMore) hKindMore,
    ofUrl_eq_of_sameDirectory hSame]

end

/-- **An origin has one normal form.**  An origin with a web scheme is an address without a query
and a fragment, its path ends with one slash, and it is read back from its text.  If the text it
was given in ends neither with a blank nor with one of the control characters in front of the blank,
any slashes may follow it: the origin is the same, and so packages are resolved alike. -/
theorem parse_normalForm {input : String} {o : Origin} (h : parse input = .ok o)
    (hWeb : o.IsWeb) :
    o.base.query = none ∧ o.base.fragment = none ∧
      (∃ front, o.base.path.chars = front ++ ['/'] ∧ front.getLast? ≠ some '/') ∧
      parse o.toString = .ok o ∧
      ∀ c, input.toList.getLast? = some c → isBlank c = false → 0x20 ≤ c.toNat →
        ∀ n : Nat, parse (input ++ String.ofList (List.replicate n '/')) = .ok o := by
  refine ⟨?_, ?_, exists_path_chars h hWeb, parse_toString h hWeb, ?_⟩
  · obtain ⟨u, -, -, rfl⟩ := exists_ofUrl_of_parse h hWeb
    rfl
  · obtain ⟨u, -, -, rfl⟩ := exists_ofUrl_of_parse h hWeb
    rfl
  · exact fun c hLast hBlank hAbove n => parse_append_slashes h hWeb hLast hBlank hAbove n

/-- Dot segments, a backslash and a port that the scheme has anyway are gone from the normal form,
and slashes behind the address do not come back. -/
theorem parse_normalForm_dots :
    ∃ o, parse "https://cdn.example:443/a/..\\esm//" = .ok o ∧ o.IsWeb ∧
      o.toString = "https://cdn.example/esm/" ∧ parse "https://cdn.example/esm/" = .ok o ∧
      parse "https://cdn.example:443/a/..\\esm/////" = .ok o := by
  have hSome : (parse "https://cdn.example:443/a/..\\esm//").toOption.any fun o =>
      o.base.scheme = "https".toList ∧ o.toString = "https://cdn.example/esm/" := by
    decide +kernel
  cases hParse : parse "https://cdn.example:443/a/..\\esm//" with
  | error e => simp [hParse, Except.toOption] at hSome
  | ok o =>
      simp only [hParse, Except.toOption, Option.any_some, decide_eq_true_eq] at hSome
      obtain ⟨hScheme, hText⟩ := hSome
      obtain ⟨-, -, -, hAgain, hSlashes⟩ := parse_normalForm hParse (Or.inr hScheme)
      rw [hText] at hAgain
      exact ⟨o, rfl, Or.inr hScheme, hText, hAgain,
        hSlashes '/' (by decide) (by decide) (by decide) 3⟩

end Origin

end PagePreview.Import
