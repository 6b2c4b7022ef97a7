import PagePreview.Proofs.Import.Origins
import PagePreview.Proofs.Url.RelativePaths

/-!
# Packages with plain names

A plain name consists of letters, digits and a few signs and is cut by slashes
into parts that are no rows of full stops (`IsPlainName`): the names of
packages look like this, with a scope in front, a version behind, or a path
below the package.

A plain name is a relative path, and the address of an origin is that of a
directory (`exists_directory`), so a package with a plain name is found at the
address of the origin with the name behind it: `resolve_plainName`.
-/

namespace PagePreview.Import

open Text

/-! ## Plain names -/

/-- A letter, a digit or a sign that stands for itself in every part of an address. -/
def isPlainChar (c : Char) : Bool :=
  c.isAlphanum || c == '@' || c == '.' || c == '_' || c == '~' || c == '-' || c == '/'

/-- The name of a package without anything that an address could read differently. -/
structure IsPlainName (name : List Char) : Prop where
  ne_nil : name ≠ []
  first : name.head? ≠ some '/'
  chars : ∀ c ∈ name, isPlainChar c = true
  parts : ∀ part ∈ name.splitOn '/', part ≠ [] → ∃ c ∈ part, c ≠ '.'

theorem not_special_of_isPlainChar {c : Char} (h : isPlainChar c = true) :
    Url.inPathSet c = false ∧ c ≠ '\\' ∧ c ≠ ':' ∧ c ≠ '%' := by
  have hSmall : c.toNat < 0x80 := by
    simp only [isPlainChar, Bool.or_eq_true, beq_iff_eq] at h
    rcases h with (((((h | rfl) | rfl) | rfl) | rfl) | rfl) | rfl
    · exact toNat_of_isAlphanum h
    all_goals decide
  have hAll : ∀ n < 0x80, isPlainChar (Char.ofNat n) = true →
      Url.inPathSet (Char.ofNat n) = false ∧ Char.ofNat n ≠ '\\' ∧ Char.ofNat n ≠ ':' ∧
        Char.ofNat n ≠ '%' := by
    decide +kernel
  exact of_toNat_lt (P := fun c => isPlainChar c = true →
    Url.inPathSet c = false ∧ c ≠ '\\' ∧ c ≠ ':' ∧ c ≠ '%') hAll hSmall h

/-- Without escapes full stops are the only ones that are read as such. -/
theorem plainDots_of_not_mem {part : List Char} (h : '%' ∉ part) : Url.plainDots part = part := by
  fun_induction Url.plainDots part with
  | case1 rest => simp at h
  | case2 rest => simp at h
  | case3 c rest _ _ ih => rw [ih (fun hMem => h (List.mem_cons_of_mem c hMem))]
  | case4 => rfl

namespace IsPlainName

variable {name : List Char} (h : IsPlainName name)

include h

/-- No part of a plain name leads upwards or disappears. -/
theorem isKept : Url.IsKept (name.splitOn '/') := by
  intro part hPart
  have hEscape : '%' ∉ part := by
    intro hMem
    obtain hSlash | hMem := List.mem_cons.mp (Url.mem_of_mem_segment hPart hMem)
    · exact absurd hSlash (by decide)
    · exact (not_special_of_isPlainChar (h.chars '%' hMem)).2.2.2 rfl
  have hOther (dots : List Char) (hDots : ∀ c ∈ dots, c = '.') (hSome : dots ≠ []) :
      (part == dots) = false := by
    rw [beq_eq_false_iff_ne]
    rintro rfl
    obtain ⟨c, hMem, hStop⟩ := h.parts part hPart hSome
    exact hStop (hDots c hMem)
  rw [Url.isDot, Url.isDoubleDot, plainDots_of_not_mem hEscape]
  exact ⟨hOther ['.'] (by simp) (by simp), hOther ['.', '.'] (by simp) (by simp)⟩

theorem isRelativePath : Url.IsRelativePath name where
  ne_nil := h.ne_nil
  first := h.first
  chars := fun c hMem =>
    have hChar := not_special_of_isPlainChar (h.chars c hMem)
    ⟨hChar.1, hChar.2.1, hChar.2.2.1⟩
  segments := h.isKept

/-- Behind its leading full stops no slash follows. -/
theorem head?_dropWhile_stops : (name.dropWhile (· == '.')).head? ≠ some '/' := by
  intro hSlash
  obtain ⟨rest, hRest⟩ := List.head?_eq_some_iff.mp hSlash
  have hName : name.takeWhile (· == '.') ++ '/' :: rest = name := by
    rw [← hRest, List.takeWhile_append_dropWhile]
  have hStops : ∀ c ∈ name.takeWhile (· == '.'), c = '.' := fun c hMem =>
    beq_iff_eq.mp (List.all_eq_true.mp List.all_takeWhile c hMem)
  have hPart : name.takeWhile (· == '.') ∈ name.splitOn '/' := by
    have hWhole : (name.takeWhile (· == '.')).splitOn '/' = [name.takeWhile (· == '.')] :=
      List.splitOn_eq_singleton fun hMem => absurd (hStops '/' hMem) (by decide)
    have hCut := List.splitOn_append_cons_self (a := '/') (name.takeWhile (· == '.')) rest
    rw [hName, hWhole] at hCut
    simp [hCut]
  by_cases hNone : name.takeWhile (· == '.') = []
  · rw [hNone, List.nil_append] at hName
    exact h.first (by rw [← hName]; rfl)
  · obtain ⟨c, hMem, hStop⟩ := h.parts _ hPart hNone
    exact hStop (hStops c hMem)

/-- The mark has a colon. -/
theorem dropFront?_packageMark : dropFront? packageMark name = none := by
  cases hDrop : dropFront? packageMark name with
  | none => rfl
  | some rest =>
      have hColon : ':' ∈ name := by simp [eq_append_of_dropFront? hDrop, packageMark]
      exact absurd rfl (h.isRelativePath.chars ':' hColon).2.2

theorem classify_eq_bare : classify name = .bare := by
  have hMark : startsWith packageMark name = false := by
    rw [startsWith_eq_isSome_dropFront?, h.dropFront?_packageMark]
    rfl
  rw [classify, hMark, h.isRelativePath.parse_eq_error]
  simp [h.head?_dropWhile_stops]

end IsPlainName

/-! ## Below an origin -/

namespace Origin

variable {o : Origin}

/-- **The address of an origin is that of a directory**: its path ends with an empty segment. -/
theorem exists_directory {input : String} (h : parse input = .ok o) (hWeb : o.IsWeb) :
    ∃ dirs, o.base.path = .segments (dirs ++ [[]]) := by
  have hKind := hWeb.kind_eq
  obtain ⟨u, hRead, hBase⟩ := exists_of_parse h
  have hOwn : u.kind = .special := by rwa [hBase] at hKind
  obtain ⟨segments, hPath, hClean⟩ := Url.exists_isClean_of_parse hRead hOwn
  have hChars : ∀ c ∈ dropEndWhile (· == '/') u.path.chars, Url.endsPath c = false := by
    intro c hMem
    have hKept := (List.dropWhile_suffix (· == '/')).subset (List.mem_reverse.mp hMem)
    rw [hPath] at hKept
    exact Url.endsPath_of_mem_chars hClean c (List.mem_reverse.mp hKept)
  obtain ⟨dirs, hDirs⟩ := Url.exists_readPathBehindHost_slash hOwn hChars
  refine ⟨dirs, ?_⟩
  rw [hBase, directoryPath, hDirs]

/-- A plain name is put behind the address of the origin. -/
theorem join_plainName {input : String} (h : parse input = .ok o) (hWeb : o.IsWeb)
    {name : List Char} (hPlain : IsPlainName name) : o.join name = o.base.chars ++ name := by
  have hDirectory := isDirectory_of_parse h hWeb
  obtain ⟨dirs, hPath⟩ := exists_directory h hWeb
  obtain ⟨a, _, hAuthority, -⟩ := hDirectory.base.exists_host hDirectory.kind
  have hJoin := hPlain.isRelativePath.join_eq hDirectory.kind hPath
  rw [join, hJoin]
  exact Url.chars_below hAuthority hPath hDirectory.tail name

end Origin

/-- **A plain name is resolved to the address of the origin with the name behind it**, with the
mark of packages and any slashes in front of it as well; and that address is no package. -/
theorem resolve_plainName {input : String} {o : Origin} (hOrigin : Origin.parse input = .ok o)
    (hWeb : o.IsWeb) {name : String} (hPlain : IsPlainName name.toList) :
    o.resolve name = some (o.toString ++ name) ∧
      (∀ slashes : Nat, o.resolve
        ("npm:" ++ String.ofList (List.replicate slashes '/') ++ name) =
          some (o.toString ++ name)) ∧
      o.resolve (o.toString ++ name) = none := by
  have hJoin := Origin.join_plainName hOrigin hWeb hPlain
  have hText : String.ofList (o.join name.toList) = o.toString ++ name := by
    rw [hJoin, Origin.toString]
    simp
  refine ⟨?_, fun slashes => ?_, ?_⟩
  · rw [Origin.resolve, Origin.resolveChars, hPlain.dropFront?_packageMark,
      hPlain.classify_eq_bare, ← hText]
    rfl
  · have hMarked : ("npm:" ++ String.ofList (List.replicate slashes '/') ++ name).toList =
        packageMark ++ (List.replicate slashes '/' ++ name.toList) := by
      simp [packageMark]
    have hRest : (List.replicate slashes '/' ++ name.toList).dropWhile (· == '/') =
        name.toList := by
      refine dropWhile_append_of_head? (fun c hMem => ?_) fun d hFirst => ?_
      · simp [List.eq_of_mem_replicate hMem]
      · rw [beq_eq_false_iff_ne]
        rintro rfl
        exact hPlain.first hFirst
    rw [Origin.resolve, hMarked, Origin.resolveChars, dropFront?_append, ← hText]
    simp only [hRest, Option.map_some]
  · have hNone : o.resolveChars (o.join name.toList) = none := by
      rw [Origin.resolveChars_join_eq_none_iff (Origin.isDirectory_of_parse hOrigin hWeb),
        isMarkAddress, hPlain.isRelativePath.parse_eq_error]
      rfl
    rw [← hText, Origin.resolve, String.toList_ofList, hNone]
    rfl

theorem isPlainName_scoped : IsPlainName "@scope/pkg@1.0.0/sub".toList where
  ne_nil := by decide +kernel
  first := by decide +kernel
  chars := List.all_eq_true.mp (by decide +kernel)
  parts := by
    have hParts : ("@scope/pkg@1.0.0/sub".toList.splitOn '/').all (·.any (· != '.')) = true := by
      decide +kernel
    intro part hPart _
    simpa using List.all_eq_true.mp hParts part hPart

/-- Below `https://cdn.example/esm` a file of a package with a scope and a version. -/
theorem resolve_plainName_scoped :
    ∃ o, Origin.parse "https://cdn.example/esm" = .ok o ∧ o.IsWeb ∧
      o.toString = "https://cdn.example/esm/" ∧ IsPlainName "@scope/pkg@1.0.0/sub".toList ∧
      o.resolve "@scope/pkg@1.0.0/sub" = some "https://cdn.example/esm/@scope/pkg@1.0.0/sub" ∧
      o.resolve "npm://@scope/pkg@1.0.0/sub" =
        some "https://cdn.example/esm/@scope/pkg@1.0.0/sub" ∧
      o.resolve "https://cdn.example/esm/@scope/pkg@1.0.0/sub" = none := by
  have hSome : (Origin.parse "https://cdn.example/esm").toOption.any fun o =>
      o.base.scheme = "https".toList ∧ o.toString = "https://cdn.example/esm/" := by
    decide +kernel
  cases hParse : Origin.parse "https://cdn.example/esm" with
  | error e => simp [hParse, Except.toOption] at hSome
  | ok o =>
      simp only [hParse, Except.toOption, Option.any_some, decide_eq_true_eq] at hSome
      obtain ⟨hScheme, hAddress⟩ := hSome
      have hName := resolve_plainName hParse (Or.inr hScheme) isPlainName_scoped
      rw [hAddress] at hName
      obtain ⟨hBare, hMarked, hNone⟩ := hName
      exact ⟨o, rfl, Or.inr hScheme, hAddress, isPlainName_scoped, hBare, hMarked 2, hNone⟩

end PagePreview.Import
