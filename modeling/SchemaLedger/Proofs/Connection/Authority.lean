import SchemaLedger.Connection.Url
import SchemaLedger.Proofs.Connection.Hosts
/-!
# Authorities with a password

A URL is read with a password only from an authority that has credentials with one, and
then a host has to follow. `readBehind` reads what stands behind the credentials, and
with a password the whole authority is read as that, and the credentials:
`readAuthority_of_password`. Nothing but the password is new in the URL if another one
stands there.

Everything else is read without a password. `HasPassword` says with which password a
URL is read, if one is read at all, and goes through the steps of reading.
-/

namespace SchemaLedger.Url

/-! ## Reading behind the credentials -/

def readHost (k : SchemeKind) (text : List Char) : Except UrlError Host :=
  if k.isSpecial then Host.ofDomain text else Host.ofOpaque text

/-- A port behind a colon, and the rest. -/
def readColonPort (s : List Char) : Except UrlError (Option Nat × List Char) :=
  match s with
  | ':' :: rest => readPort rest
  | _ => .ok (none, s)

def ofHost (scheme : String) (host : Host) (port? : Option Nat) : Url :=
  { scheme
    host? := some host
    port? := port?.filter (SchemeKind.defaultPort? scheme ≠ some ·)
    path := .segments [] }

/-- A URL from its host on, when somebody is named in front of the host, without who
it is. -/
def readBehind (k : SchemeKind) (scheme : String) (s : List Char) :
    Except UrlError Url := do
  if (s.take (hostLength k false s)).isEmpty then .error .emptyHost
  else
    let host ← readHost k (s.take (hostLength k false s))
    let port ← readColonPort (s.drop (hostLength k false s))
    return readAfterAuthority k (ofHost scheme host port.1) port.2

theorem readAfterAuthority_named (k : SchemeKind) (u : Url) (username password : String)
    (s : List Char) :
    readAfterAuthority k { u with username, password } s =
      { readAfterAuthority k u s with username, password } := by
  cases s with
  | nil =>
      simp only [readAfterAuthority]
      split <;> rfl
  | cons c s =>
      simp only [readAfterAuthority]
      split
      · rfl
      · split <;> rfl

theorem bind_readHost {α : Type} (k : SchemeKind) (text : List Char)
    (f : Host → Except UrlError α) :
    (if k.isSpecial = true then Host.ofDomain text >>= f else Host.ofOpaque text >>= f) =
      readHost k text >>= f := by
  rw [readHost]
  split <;> rfl

/-- With a password, an authority is who is named in it and what stands behind. -/
theorem readAuthority_of_password {k : SchemeKind} {scheme : String}
    {s credentials rest : List Char}
    (hcut : cutCredentials k s = (some credentials, rest))
    (hpassword : (readCredentials credentials).2 ≠ "") :
    readAuthority k scheme s = (readBehind k scheme rest).map fun u =>
      { u with
        username := (readCredentials credentials).1
        password := (readCredentials credentials).2 } := by
  have hne : credentials ≠ [] := by
    rintro rfl
    exact hpassword rfl
  rw [readAuthority, readBehind, hcut]
  simp only [Option.some.injEq, hne, hpassword, decide_false, Bool.false_and,
    Bool.false_eq_true, if_false, Option.getD_some, ne_eq, not_false_eq_true,
    decide_true, Bool.or_true, Bool.and_true]
  generalize rest.take (hostLength k false rest) = hostText
  generalize rest.drop (hostLength k false rest) = behind
  rw [bind_readHost]
  cases hostText with
  | nil =>
      -- Nobody's host is refused, if not before then because somebody is named.
      cases hk : k.isSpecial with
      | true => rfl
      | false =>
          have hhost : readHost k [] = .ok (.name "") := by
            rw [readHost, hk]
            rfl
          rw [hhost]
          simp only [List.isEmpty_nil, Bool.and_false, Bool.true_and, Bool.false_eq_true,
            if_false, if_true, decide_eq_true_eq, bind, Except.bind]
          split
          · rfl
          · next hhead =>
              split
              · exact absurd rfl hhead
              · rfl
  | cons c hostText =>
      simp only [List.isEmpty_cons, Bool.false_and, Bool.false_eq_true, if_false]
      cases readHost k (c :: hostText) with
      | error fault => rfl
      | ok host =>
          simp only [bind, Except.bind]
          split
          · next rest =>
              have hport : readColonPort (':' :: rest) = readPort rest := rfl
              rw [hport]
              cases readPort rest with
              | error fault => rfl
              | ok port =>
                  exact congrArg Except.ok
                    (readAfterAuthority_named k (ofHost scheme host port.1) ..)
          · next hcolon =>
              have hport : readColonPort behind = .ok (none, behind) := by
                rw [readColonPort]
                exact hcolon
              rw [hport]
              exact congrArg Except.ok
                (readAfterAuthority_named k (ofHost scheme host none) ..)

/-! ## What has been read -/

theorem isPlain_of_readHost {k : SchemeKind} {text : List Char} {host : Host}
    (h : readHost k text = .ok host) : ∀ c ∈ host.render.toList, Host.IsPlain c := by
  rw [readHost] at h
  split at h
  · exact Host.isPlain_of_ofDomain h
  · exact Host.isPlain_of_ofOpaque h

theorem exists_readAfterAuthority (k : SchemeKind) (u : Url) (s : List Char) :
    ∃ list query? fragment?, readAfterAuthority k u s =
      { u with path := .segments list, query? := query?, fragment? := fragment? } := by
  have hpath (t : List Char) : ∃ list query? fragment?, withPath k u t =
      { u with path := .segments list, query? := query?, fragment? := fragment? } :=
    ⟨_, _, _, rfl⟩
  cases s with
  | nil =>
      rw [readAfterAuthority]
      split
      · exact hpath []
      · exact ⟨[], u.query?, u.fragment?, rfl⟩
  | cons c s =>
      rw [readAfterAuthority]
      split
      · exact hpath s
      · split
        · exact ⟨[], _, _, rfl⟩
        · exact hpath (c :: s)

theorem of_readBehind {k : SchemeKind} {scheme : String} {s : List Char} {u : Url}
    (h : readBehind k scheme s = .ok u) :
    u.scheme = scheme ∧
    (∃ host, u.host? = some host ∧ ∀ c ∈ host.render.toList, Host.IsPlain c) ∧
    ∃ list, u.path = .segments list := by
  rw [readBehind] at h
  split at h
  · cases h
  · cases hhost : readHost k (s.take (hostLength k false s)) with
    | error fault =>
        rw [hhost] at h
        cases h
    | ok host =>
        cases hport : readColonPort (s.drop (hostLength k false s)) with
        | error fault =>
            rw [hhost, hport] at h
            cases h
        | ok port =>
            rw [hhost, hport] at h
            obtain ⟨list, query?, fragment?, hafter⟩ :=
              exists_readAfterAuthority k (ofHost scheme host port.1) port.2
            obtain rfl : _ = u := Except.ok.inj h
            rw [hafter]
            exact ⟨rfl, ⟨host, rfl, isPlain_of_readHost hhost⟩, list, rfl⟩

/-! ## With which password a URL is read -/

theorem password_readAfterAuthority (k : SchemeKind) (u : Url) (s : List Char) :
    (readAfterAuthority k u s).password = u.password := by
  obtain ⟨_, _, _, h⟩ := exists_readAfterAuthority k u s
  rw [h]

/-- If a URL is read, then with this password. -/
def HasPassword (password : String) (x : Except UrlError Url) : Prop :=
  ∀ u, x = .ok u → u.password = password

section HasPassword

variable {password : String} {α : Type}

theorem hasPassword_error (fault : UrlError) : HasPassword password (.error fault) :=
  nofun

theorem hasPassword_ok {u : Url} (h : u.password = password) :
    HasPassword password (.ok u) := by
  rintro _ ⟨⟩
  exact h

theorem hasPassword_bind (x : Except UrlError α) {f : α → Except UrlError Url}
    (h : ∀ a, HasPassword password (f a)) : HasPassword password (x >>= f) := by
  cases x with
  | error fault => exact hasPassword_error fault
  | ok a => exact h a

theorem hasPassword_ite {p : Prop} [Decidable p] {x y : Except UrlError Url}
    (hx : HasPassword password x) (hy : HasPassword password y) :
    HasPassword password (if p then x else y) := by
  split
  · exact hx
  · exact hy

end HasPassword

theorem hasPassword_readAuthority (k : SchemeKind) (scheme : String) (s : List Char) :
    HasPassword (readCredentials ((cutCredentials k s).1.getD [])).2
      (readAuthority k scheme s) := by
  rw [readAuthority]
  generalize cutCredentials k s = cut
  refine hasPassword_ite (hasPassword_error _) ?_
  refine hasPassword_ite (hasPassword_error _) ?_
  -- The host is read in one of two ways, and a port or none behind it.
  refine hasPassword_ite ?_ ?_
  all_goals
    refine hasPassword_bind _ fun host => ?_
    refine hasPassword_ite (hasPassword_error _) ?_
    dsimp only
    split
    all_goals
      refine hasPassword_bind _ fun port => ?_
      refine hasPassword_ite (hasPassword_error _) ?_
      exact hasPassword_ok (password_readAfterAuthority ..)

theorem hasPassword_readFileHost (s : List Char) : HasPassword "" (readFileHost s) := by
  rw [readFileHost]
  refine hasPassword_ite (hasPassword_ok rfl) ?_
  refine hasPassword_ite (hasPassword_ok (password_readAfterAuthority ..)) ?_
  refine hasPassword_bind _ fun host => ?_
  dsimp only
  split
  · refine hasPassword_ite (hasPassword_ok (password_readAfterAuthority ..)) ?_
    exact hasPassword_ok (password_readAfterAuthority ..)
  · exact hasPassword_ok (password_readAfterAuthority ..)

theorem hasPassword_readFile (s : List Char) : HasPassword "" (readFile s) := by
  unfold readFile
  split
  · exact hasPassword_ok rfl
  · refine hasPassword_ite ?_ (hasPassword_ok rfl)
    split
    · exact hasPassword_ite (hasPassword_readFileHost _) (hasPassword_ok rfl)
    · exact hasPassword_ok rfl

end SchemaLedger.Url
