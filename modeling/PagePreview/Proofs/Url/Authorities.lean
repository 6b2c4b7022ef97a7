import PagePreview.Proofs.Text.Pieces
import PagePreview.Proofs.Url.Hosts
import PagePreview.Url.Parser

/-!
# The part between the slashes and the path

An authority is a user, a host and a port in one row.  `Authority.IsRead`
says what is known of one that was read in an address of some scheme
(`IsRead.of_readAuthority`); its text has no character that would end it and
is read as the same authority (`IsRead.readAuthority_chars`).
-/

namespace PagePreview.Url

open Text

/-! ## The parts of the text -/

namespace Authority

/-- The user and the password, without the mark behind them. -/
def userChars (a : Authority) : List Char :=
  a.user ++ if a.password.isEmpty then [] else ':' :: a.password

def portChars (a : Authority) : List Char := a.port.elim [] fun p => ':' :: Decimal.natDigits p

/-- What stands behind the user. -/
def hostAndPort (a : Authority) : List Char := a.host.chars ++ a.portChars

theorem userChars_eq_nil {a : Authority} :
    a.userChars = [] ↔ (a.user.isEmpty && a.password.isEmpty) = true := by
  rw [userChars, List.append_eq_nil_iff, Bool.and_eq_true]
  cases a.password <;> simp

theorem chars_of_user {a : Authority} (h : a.userChars ≠ []) :
    a.chars = a.userChars ++ '@' :: a.hostAndPort := by
  rw [ne_eq, userChars_eq_nil] at h
  rw [chars, if_neg h, userChars, hostAndPort, portChars]
  cases a.port <;> simp

theorem chars_of_no_user {a : Authority} (h : a.userChars = []) : a.chars = a.hostAndPort := by
  have hNone := h
  rw [userChars_eq_nil] at hNone
  rw [userChars] at h
  rw [chars, if_pos hNone, h, hostAndPort, portChars]
  cases a.port <;> simp

end Authority

/-! ## Cutting the text at its marks -/

section

variable {cs rest : List Char}

theorem splitUser_append (h : '@' ∉ rest) : splitUser (cs ++ '@' :: rest) = some (cs, rest) := by
  have hBack : ∀ c ∈ rest.reverse, (c != '@') = true := all_bne_of_not_mem (by simpa using h)
  simp [splitUser, dropWhile_append_stop hBack, takeWhile_append_stop hBack]

theorem splitUser_of_not_mem (h : '@' ∉ cs) : splitUser cs = none := by
  have hBack : ∀ c ∈ cs.reverse, (c != '@') = true := all_bne_of_not_mem (by simpa using h)
  simp [splitUser, dropWhile_of_forall hBack]

theorem splitPort_append (h : ∀ c ∈ cs, c ≠ ':' ∧ c ≠ '[' ∧ c ≠ ']') :
    splitPort false (cs ++ rest) =
      (cs ++ (splitPort false rest).1, (splitPort false rest).2) := by
  induction cs with
  | nil => rfl
  | cons c cs ih =>
      rw [List.forall_mem_cons] at h
      obtain ⟨⟨hColon, hOpen, hClose⟩, hRest⟩ := h
      simp [splitPort, hColon, hOpen, hClose, ih hRest]

theorem splitPort_append_bracket (h : ∀ c ∈ cs, c ≠ '[' ∧ c ≠ ']') :
    splitPort true (cs ++ ']' :: rest) =
      (cs ++ ']' :: (splitPort false rest).1, (splitPort false rest).2) := by
  induction cs with
  | nil => simp [splitPort]
  | cons c cs ih =>
      rw [List.forall_mem_cons] at h
      obtain ⟨⟨hOpen, hClose⟩, hRest⟩ := h
      simp [splitPort, hOpen, hClose, ih hRest]

theorem isHostChar_ne {c d : Char} (h : isHostChar c = true) (hOther : isHostChar d = false) :
    c ≠ d := by
  rintro rfl
  rw [h] at hOther
  exact Bool.noConfusion hOther

/-- A host ends where its port begins. -/
theorem splitPort_hostText (h : HostText cs) :
    splitPort false (cs ++ rest) = (cs ++ (splitPort false rest).1, (splitPort false rest).2) := by
  cases h with
  | plain h =>
      exact splitPort_append fun c hMem => ⟨isHostChar_ne (h c hMem) (by decide),
        isHostChar_ne (h c hMem) (by decide), isHostChar_ne (h c hMem) (by decide)⟩
  | brackets h =>
      rename_i cs
      have hInside : ∀ c ∈ cs, c ≠ '[' ∧ c ≠ ']' := by
        intro c hMem
        obtain hChar | rfl := h c hMem
        · exact ⟨isHostChar_ne hChar (by decide), isHostChar_ne hChar (by decide)⟩
        · decide
      simp [splitPort, splitPort_append_bracket hInside]

end

/-! ## How an authority is read -/

/-- The host of a common scheme or of another one. -/
def readHost (scheme cs : List Char) : Except Fault Host :=
  if SchemeKind.of scheme == .special then specialHost cs else plainHost cs

/-- The port, if there is one. -/
def readPort (scheme : List Char) (port : Option (List Char)) : Except Fault (Option Nat) :=
  port.elim (.ok none) (port? scheme)

/-- The text is cut, then the parts are read one after the other. -/
theorem readAuthority_eq (scheme cs : List Char) (atEnd : Bool) :
    readAuthority scheme cs atEnd =
      let parts := (splitUser cs).getD ([], cs)
      let place := splitPort false parts.2
      let user := userParts parts.1
      if (cs == ['@'] && !atEnd) || (SchemeKind.of scheme == .special && place.1.isEmpty) then
        .error .emptyHost
      else
        readHost scheme place.1 >>= fun host =>
          if host == .name [] && place.2.isSome then .error .emptyHost
          else readPort scheme place.2 >>= fun port =>
            if host == .name [] && !(user.1.isEmpty && user.2.isEmpty) then .error .emptyHost
            else .ok ⟨user.1, user.2, host, port⟩ := by
  rw [readAuthority]
  obtain ⟨user, hostAndPort⟩ := (splitUser cs).getD ([], cs)
  obtain ⟨name, password⟩ := userParts user
  dsimp only
  obtain ⟨host, port⟩ := splitPort false hostAndPort
  cases cs == ['@'] && !atEnd with
  | true => rfl
  | false =>
      simp only [readHost, Bool.false_or]
      cases SchemeKind.of scheme == .special && host.isEmpty with
      | true => rfl
      | false => cases SchemeKind.of scheme == .special <;> cases port <;> rfl

section

variable {scheme cs : List Char}

theorem readHost_chars {host : Host} (h : readHost scheme cs = .ok host) :
    readHost scheme host.chars = .ok host := by
  unfold readHost at h ⊢
  split_ifs at h ⊢
  · exact specialHost_chars h
  · exact plainHost_chars h

theorem hostText_of_readHost {host : Host} (h : readHost scheme cs = .ok host) :
    HostText host.chars := by
  unfold readHost at h
  split_ifs at h
  · exact hostText_of_specialHost h
  · exact hostText_of_plainHost h

/-- A port is small, and it is not the one that the scheme has anyway. -/
theorem of_readPort {port : Option (List Char)} {p : Nat}
    (h : readPort scheme port = .ok (some p)) : p ≤ 65535 ∧ defaultPort? scheme ≠ some p := by
  cases port with
  | none => simp [readPort] at h
  | some digits =>
      rw [readPort, Option.elim_some, port?] at h
      split_ifs at h with hDigits
      dsimp only at h
      split_ifs at h with hLarge hDefault
      · simp at h
      · obtain rfl := Option.some.inj (Except.ok.inj h)
        simp only [Bool.or_eq_true, beq_iff_eq, not_or] at hDefault
        exact ⟨by omega, hDefault.2⟩

theorem readPort_natDigits {p : Nat} (hLess : p ≤ 65535) (hDefault : defaultPort? scheme ≠ some p) :
    readPort scheme (some (Decimal.natDigits p)) = .ok (some p) := by
  have hDigits : (Decimal.natDigits p).all Char.isDigit = true :=
    List.all_eq_true.mpr fun c hMem => Nat.isDigit_of_mem_toDigits (by decide) (by decide) hMem
  have hSome : (Decimal.natDigits p).isEmpty = false := by
    simp [Decimal.natDigits]
  have hValue :
      (Decimal.natDigits p).foldl (fun (acc : Nat) c => acc * 10 + (c.toNat - 48)) 0 = p := by
    have hRead : Nat.ofDigitChars 10 (Nat.toDigits 10 p) 0 = p :=
      Nat.ofDigitChars_toDigits (by decide) (by decide)
    simp only [Nat.ofDigitChars, Nat.mul_comm 10] at hRead
    exact hRead
  simp only [readPort, Option.elim_some, port?, hDigits, hValue, hSome]
  simp [hDefault]
  omega

end

/-! ## Authorities that were read -/

/-- A character of an authority: no blank and none that ends it. -/
def isAuthorityChar (c : Char) : Bool := 0x20 < c.toNat && !endsAuthority .special c

theorem toNat_of_isAuthorityChar {c : Char} (h : isAuthorityChar c = true) : 0x20 < c.toNat := by
  simp only [isAuthorityChar, Bool.and_eq_true, decide_eq_true_eq] at h
  exact h.1

theorem isAuthorityChar_of_isHostChar {c : Char} (h : isHostChar c = true) :
    isAuthorityChar c = true := by
  simp [isHostChar, isForbiddenInHost] at h
  simp [isAuthorityChar, endsAuthority, isSlash, endsPath, SchemeKind.allowsBackslash, h]

theorem HostText.isAuthorityChar_of_mem {cs : List Char} (h : HostText cs) {c : Char}
    (hMem : c ∈ cs) : isAuthorityChar c = true := by
  obtain hChar | rfl | rfl | rfl := h.of_mem hMem
  · exact isAuthorityChar_of_isHostChar hChar
  all_goals decide

theorem isAuthorityChar_of_user {c : Char} (h : inUserSet c = false) :
    isAuthorityChar c = true := by
  simp [inUserSet, inPathSet, inFragmentSet] at h
  have hBlank : 0x20 < c.toNat := lt_toNat_of_not_control (by tauto) (by tauto)
  simp [isAuthorityChar, endsAuthority, isSlash, endsPath, SchemeKind.allowsBackslash, hBlank, h]

theorem not_endsAuthority {kind : SchemeKind} {c : Char} (h : isAuthorityChar c = true) :
    endsAuthority kind c = false := by
  simp [isAuthorityChar, endsAuthority, isSlash, endsPath, SchemeKind.allowsBackslash] at h
  simp [endsAuthority, isSlash, endsPath, h]

/-- What is known of an authority that was read in an address of a scheme. -/
structure Authority.IsRead (scheme : List Char) (a : Authority) : Prop where
  user : ∀ c ∈ a.user, inUserSet c = false
  password : ∀ c ∈ a.password, inUserSet c = false
  host : readHost scheme a.host.chars = .ok a.host
  /-- A common scheme has a host. -/
  hasHost : SchemeKind.of scheme = .special → a.host.chars ≠ []
  port : ∀ p, a.port = some p → p ≤ 65535 ∧ defaultPort? scheme ≠ some p
  /-- Without a host there is no user and no port. -/
  alone : a.host = .name [] → a.userChars = [] ∧ a.port = none

namespace Authority.IsRead

variable {scheme cs : List Char} {atEnd : Bool} {a : Authority}

theorem of_readAuthority (h : readAuthority scheme cs atEnd = .ok a) : a.IsRead scheme := by
  rw [readAuthority_eq] at h
  dsimp only at h
  split_ifs at h with hNone
  generalize (splitUser cs).getD ([], cs) = parts at h hNone
  cases hHost : readHost scheme (splitPort false parts.2).1 with
  | error e => simp [hHost, bind, Except.bind] at h
  | ok host =>
      cases hPort : readPort scheme (splitPort false parts.2).2 with
      | error e =>
          simp only [hHost, hPort, bind, Except.bind] at h
          split_ifs at h
      | ok port =>
          simp only [hHost, hPort, bind, Except.bind] at h
          split_ifs at h with hNoPort hNoUser
          obtain rfl := Except.ok.inj h
          refine ⟨forall_mem_percentEncode_not (by decide),
            forall_mem_percentEncode_not (by decide), readHost_chars hHost, fun hSpecial => ?_,
            fun p hSome => ?_, fun hEmpty => ⟨?_, ?_⟩⟩
          · rw [readHost, if_pos (by simp [hSpecial])] at hHost
            exact chars_ne_nil_of_specialHost hHost
          · obtain rfl : port = some p := hSome
            exact of_readPort hPort
          · obtain rfl : host = .name [] := hEmpty
            simpa [userChars_eq_nil] using hNoUser
          · obtain rfl : host = .name [] := hEmpty
            have hNoDigits : (splitPort false parts.2).2 = none := by simpa using hNoPort
            rw [hNoDigits] at hPort
            exact (Except.ok.inj hPort).symm

variable (h : a.IsRead scheme)

include h

/-! ### The marks between the parts -/

theorem hostText : HostText a.host.chars := hostText_of_readHost h.host

theorem mem_hostAndPort : ∀ c ∈ a.hostAndPort,
    isHostChar c = true ∨ c = ':' ∨ c = '[' ∨ c = ']' := by
  intro c hMem
  rw [hostAndPort, portChars, List.mem_append] at hMem
  obtain hMem | hMem := hMem
  · exact h.hostText.of_mem hMem
  · cases hPort : a.port with
    | none => simp [hPort] at hMem
    | some p =>
        rw [hPort, Option.elim_some, List.mem_cons] at hMem
        obtain rfl | hMem := hMem
        · simp
        · have hDigit : c.isDigit = true := Nat.isDigit_of_mem_toDigits (by decide) (by decide) hMem
          exact Or.inl (isHostChar_of_allowed (isAllowed_of_isDigit hDigit))

theorem at_not_mem_hostAndPort : '@' ∉ a.hostAndPort := by
  intro hMem
  obtain hChar | hMark := h.mem_hostAndPort '@' hMem
  · exact absurd hChar (by decide)
  · exact absurd hMark (by decide)

theorem splitUser_chars :
    (splitUser a.chars).getD ([], a.chars) = (a.userChars, a.hostAndPort) := by
  by_cases hUser : a.userChars = []
  · rw [chars_of_no_user hUser, splitUser_of_not_mem h.at_not_mem_hostAndPort, hUser]
    rfl
  · rw [chars_of_user hUser, splitUser_append h.at_not_mem_hostAndPort]
    rfl

theorem chars_ne_mark : a.chars ≠ ['@'] := by
  intro hMark
  by_cases hUser : a.userChars = []
  · rw [chars_of_no_user hUser] at hMark
    exact h.at_not_mem_hostAndPort (by simp [hMark])
  · rw [chars_of_user hUser] at hMark
    have hLength := congrArg List.length hMark
    have hSome := List.length_pos_of_ne_nil hUser
    simp at hLength
    omega

theorem userParts_userChars : userParts a.userChars = (a.user, a.password) := by
  have hColon : ':' ∉ a.user := fun hMem => absurd (h.user ':' hMem) (by decide)
  have hUser := all_bne_of_not_mem hColon
  rw [userParts, userChars]
  cases hPassword : a.password with
  | nil =>
      simp [takeWhile_of_forall hUser, dropWhile_of_forall hUser, percentEncode_of_forall h.user]
      rfl
  | cons c cs =>
      have hKept := h.password
      rw [hPassword] at hKept
      simp [takeWhile_append_stop hUser, dropWhile_append_stop hUser,
        percentEncode_of_forall h.user, percentEncode_of_forall hKept]

theorem splitPort_hostAndPort :
    splitPort false a.hostAndPort = (a.host.chars, a.port.map Decimal.natDigits) := by
  rw [hostAndPort, splitPort_hostText h.hostText, portChars]
  cases a.port <;> simp [splitPort]

theorem readPort_port : readPort scheme (a.port.map Decimal.natDigits) = .ok a.port := by
  cases hPort : a.port with
  | none => rfl
  | some p => exact readPort_natDigits (h.port p hPort).1 (h.port p hPort).2

/-- **An authority is read back.** -/
theorem readAuthority_chars (atEnd : Bool) : readAuthority scheme a.chars atEnd = .ok a := by
  rw [readAuthority_eq]
  simp only [h.splitUser_chars, h.splitPort_hostAndPort, h.userParts_userChars]
  rw [if_neg]
  · simp only [h.host, h.readPort_port, bind, Except.bind]
    rw [if_neg, if_neg]
    · simp only [Bool.and_eq_true, beq_iff_eq, not_and]
      intro hEmpty
      simpa using userChars_eq_nil.mp (h.alone hEmpty).1
    · simp only [Bool.and_eq_true, beq_iff_eq, not_and]
      intro hEmpty
      simp [(h.alone hEmpty).2]
  · simp only [Bool.or_eq_true, Bool.and_eq_true, beq_iff_eq, not_or, not_and]
    refine ⟨fun hMark => absurd hMark h.chars_ne_mark, fun hSpecial => ?_⟩
    simpa using h.hasHost hSpecial

/-! ### The characters of the text -/

/-- **Nothing in the text of an authority ends it.** -/
theorem isAuthorityChar_of_mem : ∀ c ∈ a.chars, isAuthorityChar c = true := by
  have hHost (c : Char) (hMem : c ∈ a.hostAndPort) : isAuthorityChar c = true := by
    obtain hChar | rfl | rfl | rfl := h.mem_hostAndPort c hMem
    · exact isAuthorityChar_of_isHostChar hChar
    all_goals decide
  have hUser (c : Char) (hMem : c ∈ a.userChars) : isAuthorityChar c = true := by
    rw [userChars, List.mem_append] at hMem
    obtain hMem | hMem := hMem
    · exact isAuthorityChar_of_user (h.user c hMem)
    · split_ifs at hMem
      · simp at hMem
      · obtain rfl | hMem := List.mem_cons.mp hMem
        · decide
        · exact isAuthorityChar_of_user (h.password c hMem)
  intro c hMem
  by_cases hNone : a.userChars = []
  · rw [chars_of_no_user hNone] at hMem
    exact hHost c hMem
  · rw [chars_of_user hNone, List.mem_append, List.mem_cons] at hMem
    obtain hMem | rfl | hMem := hMem
    · exact hUser c hMem
    · decide
    · exact hHost c hMem

theorem chars_ne_nil (hSpecial : SchemeKind.of scheme = .special) : a.chars ≠ [] := by
  have hHost : a.hostAndPort ≠ [] := by
    rw [hostAndPort]
    exact List.append_ne_nil_of_left_ne_nil (h.hasHost hSpecial) _
  by_cases hNone : a.userChars = []
  · rw [chars_of_no_user hNone]
    exact hHost
  · rw [chars_of_user hNone]
    simp

end Authority.IsRead

end PagePreview.Url
