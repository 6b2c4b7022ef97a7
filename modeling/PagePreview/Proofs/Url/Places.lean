import PagePreview.Proofs.Url.Rereading

/-!
# Where an address leads

The `Place` of an address is its scheme, its host and its port: what decides
whom one talks to.  A place survives writing and reading again
(`IsRead.exists_parse_place`).

A text that is given relative to an address leads to the same place
(`place_join`), unless it names an address by itself (`ownAddress?`): by a
scheme that is not that of the base, or by two slashes, of either kind, behind
which a host is looked for.  Then it is read as that address
(`join_of_ownAddress?`), and the host of the base does not count.
-/

namespace PagePreview.Url

open Text

/-- Whom one talks to at an address. -/
structure Place where
  scheme : List Char
  host : Option Host
  port : Option Nat
deriving DecidableEq

def place (u : Url) : Place := ⟨u.scheme, u.authority.map (·.host), u.authority.bind (·.port)⟩

theorem place_congr {u v : Url} (hScheme : u.scheme = v.scheme)
    (hAuthority : u.authority = v.authority) : u.place = v.place := by
  rw [place, place, hScheme, hAuthority]

/-! ## Reading an address again -/

/-- An address that begins with a scheme has that scheme. -/
theorem scheme_of_parse {scheme rest : List Char} {v : Url} (hScheme : IsScheme scheme)
    (h : parse (scheme ++ ':' :: rest) = .ok v) : v.scheme = scheme := by
  have hCut : splitScheme (significant (scheme ++ ':' :: rest)) =
      some (scheme, significantRest rest) :=
    hScheme.splitScheme_significant (List.forall_mem_nil _) rest
  simp only [parse, parseFrom, hCut, withScheme, Option.filter_none] at h
  cases hKind : SchemeKind.of scheme with
  | special =>
      simp only [hKind] at h
      exact (of_behindSlashes (by simp [hKind]) h).1
  | other =>
      simp only [hKind] at h
      exact (of_otherUrl hKind h).1
  | file =>
      simp only [hKind] at h
      have hFile : scheme = fileScheme := by
        unfold SchemeKind.of at hKind
        split_ifs at hKind with hPort hName
        exact beq_iff_eq.mp hName
      rw [hFile]
      exact (of_fileFrom h).1

namespace IsRead

variable {u : Url} (h : u.IsRead)

include h

/-- Only an address of a common scheme is read as one. -/
theorem exists_parse_scheme : ∃ v, parse u.chars = .ok v ∧ v.scheme = u.scheme := by
  obtain ⟨v, hRead⟩ := h.exists_parse
  have hText := hRead
  rw [chars_eq] at hText
  exact ⟨v, hRead, scheme_of_parse h.scheme hText⟩

/-- **An address of a common scheme leads to the same place when it is read again.** -/
theorem exists_parse_place (hKind : u.kind = .special) :
    ∃ v, parse u.chars = .ok v ∧ v.place = u.place := by
  obtain ⟨a, segments, hAuthority, hRead, hPath⟩ := h.exists_host hKind
  obtain ⟨v, hParse, hScheme, hSame⟩ :=
    exists_parse_of_host h.scheme (by simp [hKind]) hAuthority hRead hPath
  exact ⟨v, hParse, place_congr hScheme hSame⟩

end IsRead

/-! ## Relative addresses -/

/-- Whether a text begins with two slashes, of either kind. -/
def beginsWithSlashes : List Char → Bool
  | a :: b :: _ => isSlash .special a && isSlash .special b
  | _ => false

/-- What stands behind the slashes at the front: exactly two of them, or all. -/
def behindFront : List Char → List Char
  | '/' :: '/' :: behind => behind
  | cs => cs.dropWhile fun c => c == '/' || c == '\\'

/-- The address that a text names by itself where one of the common scheme `scheme` is looked for:
a scheme or two slashes stand in front of it.  Of the address that it is given relative to, nothing
but the scheme counts. -/
def ownAddress? (scheme text : List Char) : Option (Except Fault Url) :=
  let cs := significant text
  match splitScheme cs with
  | some (own, rest) =>
      if own != scheme || beginsWithSlashes rest then some (withScheme none own rest) else none
  | none =>
      if beginsWithSlashes cs then some (behindSlashes scheme (behindFront cs)) else none

theorem isSlash_special (c : Char) : isSlash .special c = (c == '/' || c == '\\') := by
  simp [isSlash, SchemeKind.allowsBackslash]

theorem length_takeWhile_slashes_lt_iff (cs : List Char) :
    (cs.takeWhile fun c => c == '/' || c == '\\').length < 2 ↔ beginsWithSlashes cs = false := by
  match cs with
  | [] => simp [beginsWithSlashes]
  | [a] =>
      rw [List.takeWhile_cons]
      split <;> simp [beginsWithSlashes]
  | a :: b :: rest =>
      rw [beginsWithSlashes, isSlash_special, isSlash_special, List.takeWhile_cons,
        List.takeWhile_cons]
      split_ifs with hFirst hSecond
      · simp [hFirst, hSecond]
      · simp [hFirst, hSecond]
      · simp [hFirst]

/-- Behind the scheme only two slashes lead away. -/
theorem place_relativeTo {base u : Url} {cs : List Char} (hSlashes : beginsWithSlashes cs = false)
    (h : relativeTo base cs = .ok u) : u.place = base.place := by
  unfold relativeTo at h
  split at h
  · rw [← Except.ok.inj h]
    rfl
  · rw [← Except.ok.inj h]
    rfl
  · rw [← Except.ok.inj h]
    rfl
  · next c rest _ _ =>
      dsimp only at h
      split_ifs at h with hFirst hSecond
      · -- two slashes
        cases rest with
        | nil => simp at hSecond
        | cons d rest =>
            have hBoth : beginsWithSlashes (c :: d :: rest) = true := by
              rw [beginsWithSlashes, isSlash_special, isSlash_special, hFirst]
              simpa using hSecond
            rw [hBoth] at hSlashes
            exact absurd hSlashes (by decide)
      · rw [← Except.ok.inj h]
        rfl
      · rw [← Except.ok.inj h]
        rfl

/-- Behind two slashes a host is looked for. -/
theorem relativeTo_of_slashes (base : Url) {cs : List Char} (h : beginsWithSlashes cs = true) :
    relativeTo base cs = behindSlashes base.scheme (behindFront cs) := by
  match cs with
  | [] => simp [beginsWithSlashes] at h
  | [_] => simp [beginsWithSlashes] at h
  | a :: b :: rest =>
      rw [beginsWithSlashes, isSlash_special, isSlash_special, Bool.and_eq_true] at h
      obtain ⟨hFirst, hSecond⟩ := h
      unfold relativeTo
      split
      · next hNil => simp at hNil
      · next hMark =>
          rw [(List.cons.inj hMark).1] at hFirst
          exact absurd hFirst (by decide)
      · next hMark =>
          rw [(List.cons.inj hMark).1] at hFirst
          exact absurd hFirst (by decide)
      · next hCons =>
          obtain ⟨rfl, rfl⟩ := List.cons.inj hCons
          simp only [hFirst, List.head?_cons, Option.any_some, hSecond, if_true]
          split
          · next behind hText => rw [hText, behindFront]
          · next hOther =>
              rw [behindFront]
              exact hOther

section

variable {base : Url} (hBase : base.IsRead) (hKind : base.kind = .special) {text : List Char}

include hBase hKind

/-- **A text that names an address is read as that address.** -/
theorem join_of_ownAddress? {result : Except Fault Url}
    (h : ownAddress? base.scheme text = some result) : base.join text = result := by
  unfold ownAddress? at h
  dsimp only at h
  split at h
  · next own rest hSplit =>
      split_ifs at h with hOwn
      obtain rfl := Option.some.inj h
      simp only [join, parseFrom, hSplit]
      by_cases hSame : base.scheme = own
      · -- the scheme of the base, and two slashes behind it
        subst hSame
        rw [bne_self_eq_false, Bool.false_or] at hOwn
        have hMany := (length_takeWhile_slashes_lt_iff rest).not.mpr (by simp [hOwn])
        rw [kind] at hKind
        simp only [withScheme, hKind, Option.filter_some, beq_self_eq_true, if_true,
          Option.filter_none, if_neg hMany]
      · have hOther : (some base).filter (·.scheme == own) = none := by
          rw [Option.filter_some, if_neg (by simpa using hSame)]
        simp only [withScheme, hOther, Option.filter_none]
  · next hSplit =>
      split_ifs at h with hSlashes
      obtain ⟨_, _, _, _, hPath⟩ := hBase.exists_host hKind
      rw [join_of_no_scheme hKind hPath hSplit, relativeTo_of_slashes base hSlashes]
      exact Option.some.inj h

/-- **A text that names no address leads where the base leads.** -/
theorem place_join {u : Url} (hOwn : ownAddress? base.scheme text = none)
    (h : base.join text = .ok u) : u.place = base.place := by
  unfold ownAddress? at hOwn
  dsimp only at hOwn
  split at hOwn
  · next own rest hSplit =>
      split_ifs at hOwn with hNone
      rw [Bool.or_eq_true, not_or, bne_iff_ne, not_not, Bool.not_eq_true] at hNone
      obtain ⟨rfl, hSlashes⟩ := hNone
      have hFew := (length_takeWhile_slashes_lt_iff rest).mpr hSlashes
      rw [kind] at hKind
      simp only [join, parseFrom, hSplit, withScheme, hKind, Option.filter_some, beq_self_eq_true,
        if_true, if_pos hFew] at h
      exact place_relativeTo hSlashes h
  · next hSplit =>
      split_ifs at hOwn with hSlashes
      obtain ⟨_, _, _, _, hPath⟩ := hBase.exists_host hKind
      rw [join_of_no_scheme hKind hPath hSplit] at h
      exact place_relativeTo (by simpa using hSlashes) h

end

end PagePreview.Url
