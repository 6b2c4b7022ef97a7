import PagePreview.Import.Origin
import PagePreview.Proofs.Url.Rereading

/-!
# What a package is resolved to

Below an origin with a web scheme every package is given an address that can
be read again (`IsDirectory.exists_parse_join`), so that address is not taken
for a package a second time, but for one case: it begins with the mark of
packages itself.  `resolveChars_resolveChars` says which specifiers these are.
-/

namespace PagePreview.Import

open Text

/-! ## Origins with a web scheme -/

namespace Origin

/-- Whether the origin has one of the two schemes of the web. -/
def IsWeb (o : Origin) : Prop := o.base.scheme = "http".toList ∨ o.base.scheme = "https".toList

/-- An origin that is the address of a directory on some host. -/
structure IsDirectory (o : Origin) : Prop where
  base : o.base.IsRead
  kind : o.base.kind = .special
  hasPath : o.base.path ≠ .segments []
  tail : o.base.tail = []

variable {o : Origin}

/-- An origin is an address whose path was turned into that of a directory. -/
theorem exists_of_parse {input : String} (h : parse input = .ok o) :
    ∃ u, Url.parse (trimChars input.toList) = .ok u ∧ o.base =
      ⟨u.scheme, u.authority,
        .segments (Url.readPathBehindHost u.kind (directoryPath u.path.chars)).1, none, none⟩ := by
  cases hRead : Url.parse (trimChars input.toList) with
  | error e => simp [parse, hRead] at h
  | ok u =>
      simp only [parse, hRead] at h
      split at h
      · simp at h
      · obtain rfl := Except.ok.inj h
        exact ⟨u, rfl, rfl⟩

theorem IsWeb.kind_eq (h : o.IsWeb) : o.base.kind = .special := by
  rw [Url.kind]
  obtain hScheme | hScheme := h <;> rw [hScheme] <;> decide

/-- An origin with a web scheme is such an address. -/
theorem isDirectory_of_parse {input : String} (h : parse input = .ok o) (hWeb : o.IsWeb) :
    o.IsDirectory := by
  have hKind := hWeb.kind_eq
  obtain ⟨u, hRead, hBase⟩ := exists_of_parse h
  have hOwn : u.kind = .special := by rwa [hBase] at hKind
  have hUrl := Url.IsRead.of_parse hRead
  obtain ⟨a, segments, hAuthority, hHost, _⟩ := hUrl.exists_host hOwn
  have hSome := Url.readPathBehindHost_ne_nil (show u.kind ≠ .other by simp [hOwn])
    (directoryPath u.path.chars)
  have hNoFile : u.kind ≠ .file := by simp [hOwn]
  refine ⟨?_, hKind, ?_, ?_⟩
  · rw [hBase]
    exact ⟨hUrl.scheme, .host hNoFile hAuthority hHost rfl⟩
  · rw [hBase]
    simpa using hSome
  · rw [hBase]
    rfl

namespace IsDirectory

variable (h : o.IsDirectory)

include h

/-- **Every package is given an address that can be read.** -/
theorem exists_parse_join (relative : List Char) : ∃ v, Url.parse (o.join relative) = .ok v := by
  rw [join]
  split
  · next u hJoin => exact (h.base.of_join h.kind hJoin).exists_parse
  · obtain ⟨v, hRead, -⟩ := h.base.exists_parse_append h.kind h.hasPath h.tail relative
    exact ⟨v, hRead⟩

/-- What is given relative to the origin keeps its scheme, or it is an address of its own. -/
theorem exists_join_eq (relative : List Char) : ∃ scheme rest, Url.IsScheme scheme ∧
    o.join relative = scheme ++ ':' :: rest ∧
      ((scheme = o.base.scheme ∧ ∀ v, Url.parse relative = .ok v → v.scheme = scheme) ∨
        ∃ v, Url.parse relative = .ok v ∧ v.scheme = scheme) := by
  have hBehind (hFault : ∃ e, o.base.join relative = .error e) :
      o.join relative = o.base.scheme ++ ':' :: (o.base.body ++ relative) := by
    obtain ⟨e, hFault⟩ := hFault
    simp [join, hFault, Url.chars_eq]
  obtain hAlone | ⟨hJoined, hOther⟩ := h.base.join_cases h.kind relative
  · cases hRead : Url.parse relative with
    | error e =>
        exact ⟨_, _, h.base.scheme, hBehind ⟨e, hAlone.trans hRead⟩, Or.inl ⟨rfl, by simp⟩⟩
    | ok v =>
        have hText : o.join relative = v.chars := by simp only [join, hAlone, hRead]
        exact ⟨v.scheme, v.body, (Url.IsRead.of_parse hRead).scheme, hText.trans v.chars_eq,
          Or.inr ⟨v, rfl, rfl⟩⟩
  · cases hJoin : o.base.join relative with
    | error e => exact ⟨_, _, h.base.scheme, hBehind ⟨e, hJoin⟩, Or.inl ⟨rfl, hOther⟩⟩
    | ok u =>
        have hText : o.join relative = u.chars := by simp only [join, hJoin]
        obtain ⟨hScheme, _⟩ := hJoined u hJoin
        exact ⟨u.scheme, u.body, hScheme ▸ h.base.scheme, hText.trans u.chars_eq,
          Or.inl ⟨hScheme, fun v hRead => (hOther v hRead).trans hScheme.symm⟩⟩

end IsDirectory

end Origin

/-! ## Packages that look like packages again -/

/-- The scheme that the mark of packages is. -/
def markScheme : List Char := "npm".toList

/-- Whether a text is an address whose scheme is the mark. -/
def isMarkAddress (cs : List Char) : Bool :=
  (Url.parse cs).toOption.any (·.scheme == markScheme)

/-- Whether such an address stands behind the mark. -/
def isMarkedTwice (specifier : List Char) : Bool :=
  (dropFront? packageMark specifier).any fun rest => isMarkAddress (rest.dropWhile (· == '/'))

theorem isMarkAddress_iff {cs : List Char} :
    isMarkAddress cs = true ↔ ∃ v, Url.parse cs = .ok v ∧ v.scheme = markScheme := by
  rw [isMarkAddress]
  cases Url.parse cs <;> simp [Except.toOption]

section

variable {scheme rest : List Char} (hScheme : Url.IsScheme scheme)

include hScheme

/-- Behind a scheme no other one is looked for. -/
theorem startsWith_packageMark_iff :
    startsWith packageMark (scheme ++ ':' :: rest) = true ↔ scheme = markScheme := by
  constructor
  · intro hMark
    rw [startsWith_eq_isSome_dropFront?, Option.isSome_iff_exists] at hMark
    obtain ⟨behind, hMark⟩ := hMark
    have hText := eq_append_of_dropFront? hMark
    have hSplit := hScheme.splitScheme_append rest
    rw [hText] at hSplit
    have hOther : Url.IsScheme markScheme :=
      ⟨by decide, List.all_eq_true.mp (by decide), by decide⟩
    have hSame := hOther.splitScheme_append behind
    rw [show packageMark ++ behind = markScheme ++ ':' :: behind from rfl, hSame] at hSplit
    exact (Prod.mk.inj (Option.some.inj hSplit)).1.symm
  · rintro rfl
    rfl

/-- An address is none of the other sorts of specifiers. -/
theorem classify_of_scheme (hMark : startsWith packageMark (scheme ++ ':' :: rest) = false)
    (hRead : ∃ v, Url.parse (scheme ++ ':' :: rest) = .ok v) :
    classify (scheme ++ ':' :: rest) = .absoluteUrl := by
  obtain ⟨v, hRead⟩ := hRead
  obtain ⟨c, tail, rfl, hAlpha⟩ := hScheme.exists_cons
  have hStop : c ≠ '.' := by
    rintro rfl
    exact absurd hAlpha (by decide)
  have hSlash : c ≠ '/' := by
    rintro rfl
    exact absurd hAlpha (by decide)
  simp only [classify, hMark, hRead]
  simp [hStop, hSlash]

end

namespace Origin

variable {o : Origin} (h : o.IsDirectory)

include h

/-- An address is taken for a package exactly if it was read from one with the scheme of the
mark. -/
theorem resolveChars_join_eq_none_iff (relative : List Char) :
    o.resolveChars (o.join relative) = none ↔ isMarkAddress relative = false := by
  obtain ⟨scheme, rest, hScheme, hText, hFrom⟩ := h.exists_join_eq relative
  have hRead := h.exists_parse_join relative
  have hMark : startsWith packageMark (o.join relative) = true ↔ isMarkAddress relative = true := by
    rw [hText, startsWith_packageMark_iff hScheme, isMarkAddress_iff]
    constructor
    · rintro rfl
      obtain ⟨hBase, _⟩ | hOwn := hFrom
      · exact absurd h.kind (by rw [Url.kind, ← hBase]; decide)
      · exact hOwn
    · rintro ⟨v, hRead, hOther⟩
      obtain ⟨_, hBase⟩ | ⟨w, hOwn, rfl⟩ := hFrom
      · rw [← hOther, hBase v hRead]
      · rw [← hOther, Except.ok.inj (hOwn.symm.trans hRead)]
  rw [← Bool.not_eq_true, ← hMark]
  cases hDrop : dropFront? packageMark (o.join relative) with
  | some behind => simp [resolveChars, startsWith_eq_isSome_dropFront?, hDrop]
  | none =>
      have hNoMark : startsWith packageMark (o.join relative) = false := by
        rw [startsWith_eq_isSome_dropFront?, hDrop]
        rfl
      have hAddress : classify (o.join relative) = .absoluteUrl := by
        rw [hText] at hNoMark hRead ⊢
        exact classify_of_scheme hScheme hNoMark hRead
      simp [resolveChars, hDrop, hAddress, hNoMark]

/-- **What a package is resolved to is no package, unless it is marked twice.** -/
theorem resolveChars_resolveChars {specifier address : List Char}
    (hResolve : o.resolveChars specifier = some address) :
    o.resolveChars address = none ↔ isMarkedTwice specifier = false := by
  unfold resolveChars at hResolve
  split at hResolve
  · next rest hDrop =>
      obtain rfl := Option.some.inj hResolve
      rw [resolveChars_join_eq_none_iff h]
      simp [isMarkedTwice, hDrop]
  · next hDrop =>
      split at hResolve
      · next hBare =>
          obtain rfl := Option.some.inj hResolve
          rw [resolveChars_join_eq_none_iff h]
          -- a name without the mark is no address
          have hNone : isMarkAddress specifier = false := by
            rw [Bool.eq_false_iff, ne_eq, isMarkAddress_iff]
            rintro ⟨v, hRead, _⟩
            simp only [classify, startsWith_eq_isSome_dropFront?, hDrop, hRead, Option.isSome_none,
              Bool.false_eq_true, if_false] at hBare
            split_ifs at hBare
          simp [isMarkedTwice, hDrop, hNone]
      · simp at hResolve
      · simp at hResolve

end Origin

end PagePreview.Import
