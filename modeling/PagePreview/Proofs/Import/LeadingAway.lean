import PagePreview.Proofs.Import.Origins
import PagePreview.Proofs.Url.Places

/-!
# Packages that lead away from the origin

What a package is resolved to can always be read, and mostly it has the
scheme, the host and the port of the origin.  It has others exactly if the
text of the package says itself where it leads and a host is read there
(`leadsAway`): slashes in front are taken off behind the mark and make a path
without it, but backslashes do the same as slashes, blanks in front of an
address do not count, and an address of its own may stand behind the mark.

* `resolve_samePlace_iff`: which packages keep to the place of the origin.
* `not_resolve_samePlace`: not all of them do.
-/

namespace PagePreview.Import

open Text

/-- The text of a package, without the mark and the slashes behind it. -/
def packageText (specifier : List Char) : List Char :=
  match dropFront? packageMark specifier with
  | some rest => rest.dropWhile (· == '/')
  | none => specifier

namespace Origin

variable {o : Origin}

/-- Whether the text of a package names an address by itself that can be read, and it leads to
another place than the origin. -/
def leadsAway (o : Origin) (text : List Char) : Bool :=
  match Url.ownAddress? o.base.scheme text with
  | some (.ok u) => u.place != o.base.place
  | _ => false

/-- A specifier that is replaced is replaced by what its text gives below the origin. -/
theorem eq_join_of_resolveChars {specifier address : List Char}
    (h : o.resolveChars specifier = some address) : address = o.join (packageText specifier) := by
  unfold resolveChars at h
  split at h
  · next rest hDrop =>
      rw [packageText, hDrop]
      exact (Option.some.inj h).symm
  · next hDrop =>
      rw [packageText, hDrop]
      split at h
      · exact (Option.some.inj h).symm
      · simp at h
      · simp at h

namespace IsDirectory

variable (h : o.IsDirectory)

include h

/-- What is not joined onto the origin keeps its place behind it. -/
theorem leadsAway_of_error {text : List Char} {e : Url.Fault} (hJoin : o.base.join text = .error e) :
    o.leadsAway text = false := by
  cases hOwn : Url.ownAddress? o.base.scheme text with
  | none => simp [leadsAway, hOwn]
  | some result =>
      obtain rfl := (Url.join_of_ownAddress? h.base h.kind hOwn).symm.trans hJoin
      simp [leadsAway, hOwn]

/-- Only a text that names an address can lead to another place. -/
theorem leadsAway_eq_false_iff {text : List Char} {u : Url} (hJoin : o.base.join text = .ok u) :
    o.leadsAway text = false ↔ u.place = o.base.place := by
  cases hOwn : Url.ownAddress? o.base.scheme text with
  | none =>
      have hSame := Url.place_join h.base h.kind hOwn hJoin
      simp [leadsAway, hOwn, hSame]
  | some result =>
      obtain rfl := (Url.join_of_ownAddress? h.base h.kind hOwn).symm.trans hJoin
      simp [leadsAway, hOwn]

/-- **An address below the origin leads to its place, unless its text leads away.** -/
theorem exists_place_join (text : List Char) :
    ∃ v, Url.parse (o.join text) = .ok v ∧ (v.place = o.base.place ↔ o.leadsAway text = false) := by
  cases hJoin : o.base.join text with
  | error e =>
      have hText : o.join text = o.base.chars ++ text := by rw [join, hJoin]
      obtain ⟨v, hRead, hScheme, hAuthority⟩ :=
        h.base.exists_parse_append h.kind h.hasPath h.tail text
      rw [hText]
      refine ⟨v, hRead, ?_⟩
      rw [Url.place_congr hScheme hAuthority, h.leadsAway_of_error hJoin]
      exact ⟨fun _ => rfl, fun _ => rfl⟩
  | ok u =>
      have hText : o.join text = u.chars := by rw [join, hJoin]
      have hUrl : u.IsRead := h.base.of_join h.kind hJoin
      rw [hText, h.leadsAway_eq_false_iff hJoin]
      by_cases hKind : u.kind = .special
      · obtain ⟨v, hRead, hPlace⟩ := hUrl.exists_parse_place hKind
        refine ⟨v, hRead, ?_⟩
        rw [hPlace]
      · -- a scheme of another sort is that of another place
        obtain ⟨v, hRead, hScheme⟩ := hUrl.exists_parse_scheme
        have hOther : u.scheme ≠ o.base.scheme := by
          intro hSame
          apply hKind
          rw [Url.kind, hSame]
          exact h.kind
        refine ⟨v, hRead, ?_⟩
        constructor
        · intro hPlace
          exact absurd (hScheme.symm.trans (congrArg Url.Place.scheme hPlace)) hOther
        · intro hPlace
          exact absurd (congrArg Url.Place.scheme hPlace) hOther

end IsDirectory

end Origin

/-- **What a package is resolved to** can be read, and it has the scheme, the host and the port of
the origin exactly if the text of the package does not lead away. -/
theorem resolve_samePlace_iff {input : String} {o : Origin} (hOrigin : Origin.parse input = .ok o)
    (hWeb : o.IsWeb) {specifier address : String} (hResolve : o.resolve specifier = some address) :
    ∃ v, Url.parse address.toList = .ok v ∧
      (v.place = o.base.place ↔ o.leadsAway (packageText specifier.toList) = false) := by
  obtain ⟨chars, hChars, rfl⟩ := Option.map_eq_some_iff.mp hResolve
  have hJoin := Origin.eq_join_of_resolveChars hChars
  rw [String.toList_ofList, hJoin]
  exact (Origin.isDirectory_of_parse hOrigin hWeb).exists_place_join _

/-! ## Two packages below one origin -/

/-- The origin that is read from `https://cdn.example`. -/
def exampleOrigin : Origin :=
  ⟨{ scheme := "https".toList, authority := some { host := .name "cdn.example".toList },
     path := .segments [[]] }⟩

theorem parse_exampleOrigin : Origin.parse "https://cdn.example" = .ok exampleOrigin := by
  have hBase : (Origin.parse "https://cdn.example").toOption.map (·.base) =
      some exampleOrigin.base := by
    decide +kernel
  cases hParse : Origin.parse "https://cdn.example" with
  | error e => simp [hParse, Except.toOption] at hBase
  | ok o =>
      simp only [hParse, Except.toOption, Option.map_some, Option.some.injEq] at hBase
      exact congrArg (fun base => Except.ok (Origin.mk base)) hBase

/-- Two backslashes behind the mark lead away from the origin. -/
theorem exampleOrigin_resolve_backslashes :
    exampleOrigin.resolve "npm:\\\\other.example/x" = some "https://other.example/x" := by
  decide +kernel

/-- Below `https://cdn.example` two slashes behind the mark are taken off, and the package stays on
the origin; it leads away with two backslashes. -/
theorem resolve_samePlace_slashes :
    ∃ o, Origin.parse "https://cdn.example" = .ok o ∧ o.IsWeb ∧
      o.resolve "npm://other.example/x" = some "https://cdn.example/other.example/x" ∧
      (∃ v, Url.parse "https://cdn.example/other.example/x".toList = .ok v ∧
        v.place = o.base.place) ∧
      o.resolve "npm:\\\\other.example/x" = some "https://other.example/x" ∧
      ∃ v, Url.parse "https://other.example/x".toList = .ok v ∧ v.place ≠ o.base.place := by
  have hWeb : exampleOrigin.IsWeb := Or.inr rfl
  have hSlashes : exampleOrigin.resolve "npm://other.example/x" =
      some "https://cdn.example/other.example/x" := by
    decide +kernel
  have hStays : exampleOrigin.leadsAway (packageText "npm://other.example/x".toList) = false := by
    decide +kernel
  have hLeaves : exampleOrigin.leadsAway (packageText "npm:\\\\other.example/x".toList) = true := by
    decide +kernel
  obtain ⟨v, hRead, hPlace⟩ := resolve_samePlace_iff parse_exampleOrigin hWeb hSlashes
  obtain ⟨w, hOther, hAway⟩ :=
    resolve_samePlace_iff parse_exampleOrigin hWeb exampleOrigin_resolve_backslashes
  refine ⟨exampleOrigin, parse_exampleOrigin, hWeb, hSlashes, ⟨v, hRead, hPlace.mpr hStays⟩,
    exampleOrigin_resolve_backslashes, w, hOther, ?_⟩
  rw [ne_eq, hAway, hLeaves]
  decide

/-- **Not every package stays on its origin.** -/
theorem not_resolve_samePlace :
    ¬ ∀ (input : String) (o : Origin), Origin.parse input = .ok o → o.IsWeb →
      ∀ specifier address : String, o.resolve specifier = some address →
        ∃ v, Url.parse address.toList = .ok v ∧ v.place = o.base.place := by
  intro h
  obtain ⟨v, hRead, hPlace⟩ :=
    h _ _ parse_exampleOrigin (Or.inr rfl) _ _ exampleOrigin_resolve_backslashes
  have hHost : (Url.parse "https://other.example/x".toList).toOption.map (·.place) ≠
      some exampleOrigin.base.place := by
    decide +kernel
  apply hHost
  rw [hRead, Except.toOption, Option.map_some, hPlace]

end PagePreview.Import
