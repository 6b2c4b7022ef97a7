import Mathlib.Data.List.TakeWhile
import PagePreview.Import.Library
import PagePreview.Proofs.Text.Pieces

/-!
# Which specifiers name the library

A specifier names a package if its path, the part in front of a query or
fragment, is the package or ends with it behind a slash, perhaps with a version
that holds no slash (`NamesPackage`).  The check takes the path as a whole, or
what stands behind its last slash, and looks at the front of it.  This is not
the same:

* a package with a slash in its name is never found behind a path, because
  nothing behind the last slash is that package (`IsOverlooked`);
* a version at the front of the path may hold slashes, so `react@19/jsx-runtime`
  counts as a version of `react` (`IsMistaken`).

These are the only differences: `matchesSpecifier_iff`.
-/

namespace PagePreview.Import.UiLibrary

open Text

/-! ## What a specifier names -/

/-- The part of a specifier in front of a query or fragment. -/
def path (specifier : String) : List Char :=
  specifier.toList.takeWhile fun c => !(c == '?' || c == '#')

/-- The package, perhaps with a version. -/
def IsVersion (package cs : List Char) : Prop :=
  cs = package ∨ ∃ version, '/' ∉ version ∧ cs = package ++ '@' :: version

/-- The package behind a slash, perhaps with a version. -/
def IsBehindPath (package cs : List Char) : Prop :=
  ∃ front last, IsVersion package last ∧ cs = front ++ '/' :: last

/-- The package on its own or behind a slash, perhaps with a version. -/
def NamesPackage (package cs : List Char) : Prop :=
  IsVersion package cs ∨ IsBehindPath package cs

/-- The package and an `@` at the front, whatever follows. -/
def BeginsWithVersion (package cs : List Char) : Prop :=
  ∃ rest, cs = package ++ '@' :: rest

/-- A package with a slash in its name stands behind a path, and nowhere in front. -/
def IsOverlooked (package cs : List Char) : Prop :=
  '/' ∈ package ∧ IsBehindPath package cs ∧ cs ≠ package ∧ ¬ BeginsWithVersion package cs

/-- What looks like a version goes on with a slash, and does not end with the package. -/
def IsMistaken (package cs : List Char) : Prop :=
  BeginsWithVersion package cs ∧ ¬ NamesPackage package cs

variable {package cs : List Char}

theorem IsVersion.eq_or_begins (h : IsVersion package cs) :
    cs = package ∨ BeginsWithVersion package cs := by
  rcases h with h | ⟨version, _, h⟩
  · exact .inl h
  · exact .inr ⟨version, h⟩

/-! ## What the check looks at -/

theorem isVariant_iff : isVariant package cs = true ↔
    cs = package ∨ BeginsWithVersion package cs := by
  constructor
  · intro h
    unfold isVariant at h
    split at h
    · next hFront => exact .inl (by simpa using eq_append_of_dropFront? hFront)
    · next c rest hFront =>
      obtain rfl : c = '@' := beq_iff_eq.mp h
      exact .inr ⟨rest, eq_append_of_dropFront? hFront⟩
    · exact absurd h (by simp)
  · rintro (rfl | ⟨rest, rfl⟩)
    · have hFront := dropFront?_append cs []
      rw [List.append_nil] at hFront
      simp [isVariant, hFront]
    · simp [isVariant, dropFront?_append]

theorem slash_not_mem_lastPart (cs : List Char) : '/' ∉ lastPart cs := by
  intro hMem
  rw [lastPart, List.mem_reverse] at hMem
  simpa using List.mem_takeWhile_imp hMem

/-- What stands behind a slash is the last part, if it holds no slash itself. -/
theorem lastPart_append {last : List Char} (h : '/' ∉ last) (front : List Char) :
    lastPart (front ++ '/' :: last) = last := by
  have hLast : ∀ c ∈ last.reverse, (c != '/') = true :=
    all_bne_of_not_mem (by simpa using h)
  rw [lastPart, List.reverse_append, List.reverse_cons, List.append_assoc, List.singleton_append,
    takeWhile_append_stop hLast (by simp), List.reverse_reverse]

/-- A text with a slash is cut in front of its last part. -/
theorem exists_eq_append_lastPart (h : '/' ∈ cs) : ∃ front, cs = front ++ '/' :: lastPart cs := by
  obtain ⟨last, front, hCut, hLast⟩ :=
    List.eq_append_cons_of_mem (List.mem_reverse.mpr h)
  have hParts : cs = front.reverse ++ '/' :: last.reverse := by
    rw [← List.reverse_reverse cs, hCut]
    simp
  refine ⟨front.reverse, ?_⟩
  rw [hParts, lastPart_append (by simpa using hLast)]

theorem IsVersion.slash_not_mem (h : IsVersion package cs) (hPackage : '/' ∉ package) :
    '/' ∉ cs := by
  rcases h with rfl | ⟨version, hVersion, rfl⟩
  · exact hPackage
  · simp [hPackage, hVersion]

/-- Behind the last slash stands a variant of a package without a slash, or none. -/
theorem isVariant_lastPart_iff : '/' ∈ cs ∧ isVariant package (lastPart cs) = true ↔
    '/' ∉ package ∧ IsBehindPath package cs := by
  rw [isVariant_iff]
  constructor
  · rintro ⟨hSlash, hLast⟩
    have hNone := slash_not_mem_lastPart cs
    obtain ⟨front, hParts⟩ := exists_eq_append_lastPart hSlash
    rcases hLast with hLast | ⟨version, hLast⟩
    · exact ⟨by rwa [hLast] at hNone, front, lastPart cs, .inl hLast, hParts⟩
    · have hSplit : '/' ∉ package ∧ '/' ∉ version := by
        rw [hLast] at hNone
        simpa using hNone
      exact ⟨hSplit.1, front, lastPart cs, .inr ⟨version, hSplit.2, hLast⟩, hParts⟩
  · rintro ⟨hPackage, front, last, hVersion, rfl⟩
    refine ⟨by simp, ?_⟩
    rw [lastPart_append (hVersion.slash_not_mem hPackage)]
    exact hVersion.eq_or_begins

theorem matchesSpecifier_cases (ui : UiLibrary) (specifier : String) :
    ui.matchesSpecifier specifier = true ↔
      path specifier = ui.package.toList ∨ BeginsWithVersion ui.package.toList (path specifier) ∨
        '/' ∉ ui.package.toList ∧ IsBehindPath ui.package.toList (path specifier) := by
  rw [← isVariant_lastPart_iff, ← or_assoc, ← isVariant_iff]
  simp [matchesSpecifier, path]

/-- **A specifier is taken for the library's exactly if it names the package**, except that a
package with a slash in its name is overlooked behind a path, and that what only begins with the
package and `@` is mistaken for it. -/
theorem matchesSpecifier_iff (ui : UiLibrary) (specifier : String) :
    ui.matchesSpecifier specifier = true ↔
      NamesPackage ui.package.toList (path specifier) ∧
          ¬ IsOverlooked ui.package.toList (path specifier) ∨
        IsMistaken ui.package.toList (path specifier) := by
  rw [matchesSpecifier_cases]
  generalize ui.package.toList = package
  generalize path specifier = cs
  constructor
  · rintro (hSame | hBegins | ⟨hPackage, hBehind⟩)
    · exact .inl ⟨.inl (.inl hSame), fun hOver => hOver.2.2.1 hSame⟩
    · by_cases hNames : NamesPackage package cs
      · exact .inl ⟨hNames, fun hOver => hOver.2.2.2 hBegins⟩
      · exact .inr ⟨hBegins, hNames⟩
    · exact .inl ⟨.inr hBehind, fun hOver => hPackage hOver.1⟩
  · rintro (⟨hVersion | hBehind, hOver⟩ | hMistaken)
    · rcases hVersion.eq_or_begins with hSame | hBegins
      · exact .inl hSame
      · exact .inr (.inl hBegins)
    · -- Behind a path a package with a slash is found only if it also stands in front.
      by_cases hSame : cs = package
      · exact .inl hSame
      by_cases hBegins : BeginsWithVersion package cs
      · exact .inr (.inl hBegins)
      exact .inr (.inr ⟨fun hSlash => hOver ⟨hSlash, hBehind, hSame, hBegins⟩, hBehind⟩)
    · exact .inr (.inl hMistaken.1)

example : ({} : UiLibrary).matchesSpecifier "react@19/jsx-runtime" = true ∧
    ({} : UiLibrary).matchesSpecifier "https://esm.sh/react@19/jsx-runtime" = false := by
  decide

/-- **Not every specifier that names the package is taken for it**: `@scope/ui` is overlooked
behind an address. -/
theorem not_matchesSpecifier_iff_namesPackage :
    ¬ ∀ (ui : UiLibrary) (specifier : String), ui.package ≠ "" → '?' ∉ ui.package.toList →
      '#' ∉ ui.package.toList → (ui.matchesSpecifier specifier = true ↔
        NamesPackage ui.package.toList (path specifier)) := by
  intro h
  have hNames : NamesPackage "@scope/ui".toList (path "https://esm.sh/@scope/ui") :=
    .inr ⟨"https://esm.sh".toList, "@scope/ui".toList, .inl rfl, by decide⟩
  have hFound := (h { package := "@scope/ui" } "https://esm.sh/@scope/ui" (by decide) (by decide)
    (by decide)).mpr hNames
  exact absurd hFound (by decide)

end PagePreview.Import.UiLibrary
