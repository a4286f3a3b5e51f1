import SchemaLedger.Proofs.Connection.Authority
import SchemaLedger.Proofs.Connection.Location
import SchemaLedger.Proofs.Sql.Naming
/-!
# Passwords in the text of a URL

`Named` is what is known of a URL that has been read with a password: what stands in
front of the host is written as it is kept, the host is written with plain characters,
and there are segments behind it. In the written form of such a URL the password stands
between the user and the host (`Named.render_eq`), and wherever the text is read from,
that is what its reader takes for the password. So the text with the mask in it is read
as the URL is, apart from the password: `Named.parse_render_redacted`.
-/

namespace SchemaLedger.Url

/-! ## Schemes as they are kept -/

theorem visible_of_isSchemeChar {c : Char} (h : isSchemeChar c = true) :
    0x20 < c.toNat := by
  simp only [isSchemeChar, Bool.or_eq_true, beq_iff_eq] at h
  rcases h with ((h | rfl) | rfl) | rfl
  · have hbounds := Text.isAlphanum_iff.1 h
    omega
  all_goals decide

theorem isSchemeChar_of_isLower {c : Char} (h : c.isLower = true) :
    isSchemeChar c = true := by
  simp [isSchemeChar, Char.isAlphanum, Text.isAlpha_of_isLower h]

structure IsScheme (s : List Char) : Prop where
  head : ∃ c rest, s = c :: rest ∧ c.isAlpha = true
  chars : ∀ c ∈ s, isSchemeChar c = true
  lower : s.map Char.toLower = s

theorem isScheme_map_toLower {c : Char} {s : List Char} (hc : c.isAlpha = true)
    (h : ∀ d ∈ c :: s, isSchemeChar d = true) :
    IsScheme ((c :: s).map Char.toLower) where
  head := by
    refine ⟨c.toLower, s.map Char.toLower, rfl, ?_⟩
    exact Text.toLower_of_isLower (P := (Char.isAlpha · = true)) hc
      fun d => Text.isAlpha_of_isLower
  chars := by
    refine List.forall_mem_map.2 fun d hd => ?_
    exact Text.toLower_of_isLower (P := (isSchemeChar · = true)) (h d hd)
      fun d => isSchemeChar_of_isLower
  lower := by
    rw [List.map_map]
    exact List.map_congr_left fun d _ => Text.toLower_toLower d

theorem isScheme_of_readScheme? {s rest : List Char} {scheme : String}
    (h : readScheme? s = some (scheme, rest)) : IsScheme scheme.toList := by
  cases s with
  | nil => cases h
  | cons c s =>
      rw [readScheme?] at h
      split at h
      · next hc =>
          split at h
          · obtain ⟨rfl, -⟩ := Prod.mk.inj (Option.some.inj h)
            have hchar : isSchemeChar c = true := by
              simp [isSchemeChar, Char.isAlphanum, hc]
            rw [String.toList_ofList, List.takeWhile_cons_of_pos hchar]
            refine isScheme_map_toLower hc (List.forall_mem_cons.2 ⟨hchar, ?_⟩)
            exact List.all_eq_true.1 List.all_takeWhile
          · cases h
      · cases h

theorem readScheme?_append {s : List Char} (h : IsScheme s) (rest : List Char) :
    readScheme? (s ++ ':' :: rest) = some (String.ofList s, rest) := by
  obtain ⟨c, t, hs, hc⟩ := h.head
  have htake : (s ++ ':' :: rest).takeWhile isSchemeChar = s := by
    rw [List.takeWhile_append_of_pos h.chars,
      List.takeWhile_cons_of_neg (by decide), List.append_nil]
  have hdrop : (s ++ ':' :: rest).dropWhile isSchemeChar = ':' :: rest := by
    rw [List.dropWhile_append_of_pos h.chars, List.dropWhile_cons_of_neg (by decide)]
  have hcons : s ++ ':' :: rest = c :: (t ++ ':' :: rest) := by rw [hs]; rfl
  rw [hcons] at htake hdrop ⊢
  rw [readScheme?, if_pos hc, hdrop]
  simp only [htake, h.lower]

/-! ## Credentials as they are kept -/

theorem of_keepInCredentials {c : Char} (h : keepInCredentials c = true) :
    Host.IsPlain c ∧ c.toNat < 0x80 ∧ c ≠ ':' ∧ ∀ k, endsAuthority k c = false := by
  have hne {d : Char} (hd : keepInCredentials d = false) : c ≠ d := by
    rintro rfl
    rw [h] at hd
    cases hd
  have hpath : Path.keep c = true := (Bool.and_eq_true_iff.1 h).1
  simp only [Path.keep, Bool.and_eq_true, decide_eq_true_eq] at hpath
  refine ⟨⟨hpath.1.1, hne (by decide)⟩, by omega, hne (by decide), fun k => ?_⟩
  have hpoint : c ≠ '?' := hne (by decide)
  have hhash : c ≠ '#' := hne (by decide)
  have hslash : c ≠ '/' := hne (by decide)
  have hback : c ≠ '\\' := hne (by decide)
  simp [endsAuthority, endsPath, SchemeKind.isSlash, hpoint, hhash, hslash, hback]

theorem keepInCredentials_of_isAlphanum {c : Char} (h : c.isAlphanum = true) :
    keepInCredentials c = true := by
  have hbounds := Text.isAlphanum_iff.1 h
  have hnot {chars : List Char} (hchars : chars.any Char.isAlphanum = false) :
      chars.contains c = false := by
    rw [← Bool.not_eq_true, List.contains_iff_mem]
    intro hmem
    exact List.any_eq_false.1 hchars c hmem h
  rw [keepInCredentials, Path.keep, hnot (by decide), hnot (by decide)]
  simp only [Bool.not_false, Bool.and_true, Bool.and_eq_true, decide_eq_true_eq]
  omega

theorem keepInCredentials_of_mem_encode {s : List Char} :
    ∀ c ∈ Percent.encode keepInCredentials s, keepInCredentials c = true := by
  intro c hc
  rcases Percent.kept_or_of_mem_encode hc with ⟨-, hkeep⟩ | rfl | halnum
  · exact hkeep
  · decide
  · exact keepInCredentials_of_isAlphanum halnum

section Credentials

variable {user password : List Char}

theorem of_mem_credentials (huser : ∀ c ∈ user, keepInCredentials c = true)
    (hpassword : ∀ c ∈ password, keepInCredentials c = true) :
    ∀ c ∈ user ++ ':' :: password, 0x20 < c.toNat ∧ ∀ k, endsAuthority k c = false := by
  have hkept {c : Char} (h : keepInCredentials c = true) :
      0x20 < c.toNat ∧ ∀ k, endsAuthority k c = false :=
    ⟨(of_keepInCredentials h).1.1, (of_keepInCredentials h).2.2.2⟩
  have hcolon : 0x20 < ':'.toNat ∧ ∀ k, endsAuthority k ':' = false :=
    ⟨by decide, fun k => by cases k <;> decide⟩
  exact List.forall_mem_append.2 ⟨fun c hc => hkept (huser c hc),
    List.forall_mem_cons.2 ⟨hcolon, fun c hc => hkept (hpassword c hc)⟩⟩

theorem readCredentials_append (huser : ∀ c ∈ user, keepInCredentials c = true)
    (hpassword : ∀ c ∈ password, keepInCredentials c = true) :
    readCredentials (user ++ ':' :: password) =
      (String.ofList user, String.ofList password) := by
  have hself {s : List Char} (h : ∀ c ∈ s, keepInCredentials c = true) :
      Percent.encode keepInCredentials s = s :=
    Percent.encode_eq_self_iff.2 fun c hc =>
      ⟨(of_keepInCredentials (h c hc)).2.1, h c hc⟩
  have hcolon : ∀ c ∈ user, decide (c ≠ ':') = true := fun c hc =>
    decide_eq_true (of_keepInCredentials (huser c hc)).2.2.1
  rw [readCredentials, List.takeWhile_append_of_pos hcolon,
    List.dropWhile_append_of_pos hcolon, List.takeWhile_cons_of_neg (by decide),
    List.dropWhile_cons_of_neg (by decide), List.append_nil, List.drop_one,
    List.tail_cons]
  simp only [hself huser, hself hpassword]

/-- The last sign that ends credentials is the one in front of a plain host. -/
theorem cutCredentials_append (k : SchemeKind) {credentials front back : List Char}
    (hcredentials : ∀ c ∈ credentials, endsAuthority k c = false)
    (hfront : ∀ c ∈ front, Host.IsPlain c)
    (hback : ∀ c, back.head? = some c → endsAuthority k c = true) :
    cutCredentials k (credentials ++ '@' :: (front ++ back)) =
      (some credentials, front ++ back) := by
  have hcred : ∀ c ∈ credentials, (!endsAuthority k c) = true := fun c hc => by
    rw [hcredentials c hc]
    rfl
  have hat : (!endsAuthority k '@') = true := by cases k <;> decide
  have hnone : back.takeWhile (!endsAuthority k ·) = [] := by
    cases back with
    | nil => rfl
    | cons c back => exact List.takeWhile_cons_of_neg (by simp [hback c rfl])
  have hnot : '@' ∉ (front ++ back).takeWhile (!endsAuthority k ·) := by
    intro hmem
    have hfront' : '@' ∈ front := by
      rw [List.takeWhile_append, hnone, List.append_nil] at hmem
      split at hmem
      · exact hmem
      · exact (List.takeWhile_prefix _).subset hmem
    exact (hfront '@' hfront').2 rfl
  rw [cutCredentials, List.takeWhile_append_of_pos hcred,
    List.dropWhile_append_of_pos hcred,
    List.takeWhile_cons_of_pos (p := (!endsAuthority k ·)) hat,
    List.dropWhile_cons_of_pos (p := (!endsAuthority k ·)) hat]
  simp only [Sql.cutLast?_append_cons credentials hnot,
    List.takeWhile_append_dropWhile]

end Credentials

/-! ## Reading a text with a password -/

/-- What counts of the end of a text. -/
def significantEnd (s : List Char) : List Char :=
  (Text.trimEnd isMargin s).filter (!isIgnored ·)

theorem not_isIgnored_of_lt {c : Char} (h : 0x20 < c.toNat) : (!isIgnored c) = true := by
  rw [ConnectionString.isIgnored_of_le (Nat.le_of_lt h)]
  rfl

theorem significant_append {front : List Char} (hne : front ≠ [])
    (h : ∀ c ∈ front, 0x20 < c.toNat) (back : List Char) :
    significant (String.ofList (front ++ back)) = front ++ significantEnd back := by
  have hmargin : ∀ c ∈ front, isMargin c = false := fun c hc =>
    decide_eq_false (Nat.not_le.2 (h c hc))
  rw [significant, String.toList_ofList, Text.trim_append hne hmargin,
    List.filter_append,
    List.filter_eq_self.2 fun c hc => not_isIgnored_of_lt (h c hc)]
  rfl

theorem head?_significantEnd {s : List Char}
    (h : ∀ c, s.head? = some c → c = '/' ∨ endsPath c = true) {c : Char}
    (hc : (significantEnd s).head? = some c) : c = '/' ∨ endsPath c = true := by
  cases s with
  | nil => cases hc
  | cons d s =>
      have hd := h d rfl
      have hplain : 0x20 < d.toNat := by
        rcases hd with rfl | hd
        · decide
        · rw [endsPath, Bool.or_eq_true, beq_iff_eq, beq_iff_eq] at hd
          rcases hd with rfl | rfl <;> decide
      have hmargin : isMargin d = false := decide_eq_false (Nat.not_le.2 hplain)
      have htrim : Text.trimEnd isMargin (d :: s) = d :: Text.trimEnd isMargin s :=
        Text.trimEnd_append (s := [d]) ⟨d, rfl, hmargin⟩ s
      rw [significantEnd, htrim, List.filter_cons_of_pos (p := (!isIgnored ·))
          (not_isIgnored_of_lt hplain)] at hc
      obtain rfl := Option.some.inj hc
      exact hd

theorem parse_of_significant {text : String} {scheme s : List Char}
    (hscheme : IsScheme scheme)
    (hfile : SchemeKind.ofScheme (String.ofList scheme) ≠ .file)
    (hslash : ∀ c, s.head? = some c → SchemeKind.isSlash .web c = false)
    (h : significant text = scheme ++ ':' :: '/' :: '/' :: s) :
    parse text = readAuthority (SchemeKind.ofScheme (String.ofList scheme))
      (String.ofList scheme) s := by
  rw [parse, h, readScheme?_append hscheme]
  dsimp only
  cases hkind : SchemeKind.ofScheme (String.ofList scheme) with
  | file => exact absurd hkind hfile
  | other => rfl
  | web =>
      have hdrop : ('/' :: '/' :: s).dropWhile (SchemeKind.isSlash .web ·) = s := by
        rw [List.dropWhile_cons_of_pos (by decide), List.dropWhile_cons_of_pos (by decide)]
        cases s with
        | nil => rfl
        | cons c s => exact List.dropWhile_cons_of_neg (by simp [hslash c rfl])
      dsimp only
      rw [hdrop]

/-- A text with a password in it is the URL that stands behind the credentials, and the
credentials. -/
theorem parse_of_credentials {scheme user password front back : List Char}
    (hscheme : IsScheme scheme)
    (hfile : SchemeKind.ofScheme (String.ofList scheme) ≠ .file)
    (huser : ∀ c ∈ user, keepInCredentials c = true)
    (hpassword : ∀ c ∈ password, keepInCredentials c = true) (hne : password ≠ [])
    (hfront : ∀ c ∈ front, Host.IsPlain c)
    (hback : ∀ c, back.head? = some c → c = '/' ∨ endsPath c = true) :
    parse (String.ofList (scheme ++ ':' :: '/' :: '/' ::
        (user ++ ':' :: password ++ '@' :: front) ++ back)) =
      (readBehind (SchemeKind.ofScheme (String.ofList scheme)) (String.ofList scheme)
        (front ++ significantEnd back)).map fun u =>
          { u with username := String.ofList user, password := String.ofList password } := by
  have hcredentials := of_mem_credentials huser hpassword
  generalize hnamed : user ++ ':' :: password = credentials at hcredentials ⊢
  have hread := hnamed ▸ readCredentials_append huser hpassword
  have hvisible : ∀ c ∈ scheme ++ ':' :: '/' :: '/' :: (credentials ++ '@' :: front),
      0x20 < c.toNat := by
    simp only [List.forall_mem_append, List.forall_mem_cons]
    exact ⟨fun c hc => visible_of_isSchemeChar (hscheme.chars c hc), by decide,
      by decide, by decide, fun c hc => (hcredentials c hc).1, by decide,
      fun c hc => (hfront c hc).1⟩
  have hsignificant := significant_append (by simp) hvisible back
  have hends (k : SchemeKind) (c : Char) (hc : (significantEnd back).head? = some c) :
      endsAuthority k c = true := by
    rw [endsAuthority, SchemeKind.isSlash]
    rcases head?_significantEnd hback hc with rfl | hpath
    · simp
    · rw [hpath, Bool.true_or]
  -- There is at least the colon in front of the password.
  have hslash (c : Char)
      (hc : (credentials ++ '@' :: (front ++ significantEnd back)).head? = some c) :
      SchemeKind.isSlash .web c = false := by
    cases credentials with
    | nil => simp at hnamed
    | cons d rest =>
        obtain rfl : d = c := Option.some.inj hc
        exact (Bool.or_eq_false_iff.1 ((hcredentials d List.mem_cons_self).2 .web)).2
  have hcut (k : SchemeKind) := cutCredentials_append k
    (fun c hc => (hcredentials c hc).2 k) hfront (hends k)
  have hword : (readCredentials credentials).2 ≠ "" := by
    rw [hread]
    simpa using hne
  rw [parse_of_significant hscheme hfile hslash (hsignificant.trans (by simp)),
    readAuthority_of_password (hcut _) hword, hread]

/-! ## URLs with a password -/

/-- A URL that has been read with a password: up to its path it is written as it is
kept. -/
structure Named (u : Url) : Prop where
  scheme : IsScheme u.scheme.toList
  not_file : SchemeKind.ofScheme u.scheme ≠ .file
  username : ∀ c ∈ u.username.toList, keepInCredentials c = true
  password : ∀ c ∈ u.password.toList, keepInCredentials c = true
  password_ne : u.password ≠ ""
  host : ∃ host, u.host? = some host ∧ ∀ c ∈ host.render.toList, Host.IsPlain c
  path : ∃ list, u.path = .segments list

theorem named_of_readAuthority {k : SchemeKind} {scheme : String} {s : List Char}
    {u : Url} (h : readAuthority k scheme s = .ok u) (hpassword : u.password ≠ "")
    (hscheme : IsScheme scheme.toList) (hfile : SchemeKind.ofScheme scheme ≠ .file) :
    Named u := by
  have hread := hasPassword_readAuthority k scheme s u h
  cases hcut : cutCredentials k s with
  | mk credentials? rest =>
      rw [hcut] at hread
      cases credentials? with
      | none => exact absurd hread hpassword
      | some credentials =>
          rw [hread] at hpassword
          rw [readAuthority_of_password hcut hpassword] at h
          cases hbehind : readBehind k scheme rest with
          | error fault =>
              rw [hbehind] at h
              cases h
          | ok v =>
              rw [hbehind] at h
              obtain rfl := Except.ok.inj h
              obtain ⟨hv, hhost, hpath⟩ := of_readBehind hbehind
              have hkept (t : List Char) : ∀ c ∈ (String.ofList
                  (Percent.encode keepInCredentials t)).toList,
                  keepInCredentials c = true := by
                rw [String.toList_ofList]
                exact keepInCredentials_of_mem_encode
              exact {
                scheme := by rwa [← hv] at hscheme
                not_file := by rwa [← hv] at hfile
                username := hkept _
                password := hkept _
                password_ne := hpassword
                host := hhost
                path := hpath }

theorem exists_of_readOther {scheme : String} {s : List Char} {u : Url}
    (h : readOther scheme s = .ok u) (hpassword : u.password ≠ "") :
    ∃ rest, readAuthority .other scheme rest = .ok u := by
  unfold readOther at h
  split at h
  · exact ⟨_, h⟩
  · cases h
    exact absurd rfl hpassword
  · cases h
    exact absurd rfl hpassword

theorem named_of_parse {text : String} {u : Url} (h : parse text = .ok u)
    (hpassword : u.password ≠ "") : Named u := by
  rw [parse] at h
  cases hread : readScheme? (significant text) with
  | none =>
      rw [hread] at h
      cases h
  | some r =>
      obtain ⟨scheme, rest⟩ := r
      rw [hread] at h
      have hscheme := isScheme_of_readScheme? hread
      dsimp only at h
      cases hkind : SchemeKind.ofScheme scheme with
      | file =>
          rw [hkind] at h
          exact absurd (hasPassword_readFile rest u h) hpassword
      | web =>
          rw [hkind] at h
          exact named_of_readAuthority h hpassword hscheme (by simp [hkind])
      | other =>
          rw [hkind] at h
          obtain ⟨rest', h⟩ := exists_of_readOther h hpassword
          exact named_of_readAuthority h hpassword hscheme (by simp [hkind])

section Named

variable {u : Url}

theorem Named.withPassword (h : Named u) {password : String}
    (hkept : ∀ c ∈ password.toList, keepInCredentials c = true) (hne : password ≠ "") :
    Named { u with password } :=
  { h with password := hkept, password_ne := hne }

theorem Named.withQuery (h : Named u) (query? : Option String) :
    Named { u with query? := query? } :=
  { h with }

theorem Named.redacted_eq (h : Named u) : u.redacted = { u with password := "xxxxx" } :=
  if_neg h.password_ne

theorem Named.redacted (h : Named u) : Named u.redacted := by
  rw [h.redacted_eq]
  exact h.withPassword (List.all_eq_true.1 (by decide)) (by decide)

def renderHost (u : Url) : String :=
  (u.host?.map Host.render).getD "" ++
    (match u.port? with
      | some port => ":" ++ toString port
      | none => "")

def renderTail (u : Url) : String :=
  u.path.render
    ++ (match u.query? with
      | some query => "?" ++ query
      | none => "")
    ++ (match u.fragment? with
      | some fragment => "#" ++ fragment
      | none => "")

/-- The password stands between the user and the host, and nowhere else. -/
theorem Named.render_eq (h : Named u) :
    u.render = u.scheme ++ "://" ++ u.username ++ ":" ++ u.password ++ "@" ++
      u.renderHost ++ u.renderTail := by
  obtain ⟨host, hhost, -⟩ := h.host
  have hcredentials : u.renderCredentials = u.username ++ (":" ++ u.password) ++ "@" := by
    rw [renderCredentials, if_neg (by simp [h.password_ne]), if_neg h.password_ne]
  rw [render, renderAuthority, hhost, renderHost, renderTail, hhost, hcredentials]
  simp only [Option.map_some, Option.getD_some, String.append_assoc]
  rfl

theorem Named.isPlain_renderHost (h : Named u) :
    ∀ c ∈ u.renderHost.toList, Host.IsPlain c := by
  obtain ⟨host, hhost, hplain⟩ := h.host
  rw [renderHost, hhost, String.toList_append]
  refine List.forall_mem_append.2 ⟨hplain, ?_⟩
  cases u.port? with
  | none => simp
  | some port =>
      rw [String.toList_append]
      refine List.forall_mem_append.2 ⟨by simp [Host.IsPlain], fun c hc => ?_⟩
      exact Address.isPlain_of_mem_toDigits (by decide) (by decide) (Nat.toList_repr ▸ hc)

theorem Named.head?_renderTail (h : Named u) (c : Char)
    (hc : u.renderTail.toList.head? = some c) : c = '/' ∨ endsPath c = true := by
  obtain ⟨list, hpath⟩ := h.path
  rw [renderTail, hpath, UrlPath.render] at hc
  simp only [String.toList_append, String.toList_ofList] at hc
  cases list with
  | cons s rest =>
      obtain rfl : '/' = c := Option.some.inj hc
      exact .inl rfl
  | nil =>
      cases hquery : u.query? with
      | some query =>
          rw [hquery] at hc
          obtain rfl : '?' = c := by simpa using hc
          exact .inr rfl
      | none =>
          cases hfragment : u.fragment? with
          | some fragment =>
              rw [hquery, hfragment] at hc
              obtain rfl : '#' = c := by simpa using hc
              exact .inr rfl
          | none =>
              rw [hquery, hfragment] at hc
              cases hc

/-- The written form is read as what stands behind the credentials, and these. -/
theorem Named.parse_render (h : Named u) :
    parse u.render =
      (readBehind (SchemeKind.ofScheme u.scheme) u.scheme
        (u.renderHost.toList ++ significantEnd u.renderTail.toList)).map fun v =>
          { v with username := u.username, password := u.password } := by
  have hlist : u.render = String.ofList (u.scheme.toList ++ ':' :: '/' :: '/' ::
      (u.username.toList ++ ':' :: u.password.toList ++ '@' :: u.renderHost.toList) ++
        u.renderTail.toList) := by
    rw [← String.toList_inj, h.render_eq]
    simp
  have hfile : SchemeKind.ofScheme (String.ofList u.scheme.toList) ≠ .file := by
    rw [String.ofList_toList]
    exact h.not_file
  have hne : u.password.toList ≠ [] := by simpa using h.password_ne
  rw [hlist, parse_of_credentials h.scheme hfile h.username h.password hne
    h.isPlain_renderHost h.head?_renderTail]
  simp only [String.ofList_toList]

theorem Named.parse_render_redacted (h : Named u) :
    parse u.redacted.render =
      (parse u.render).map fun v => { v with password := "xxxxx" } := by
  rw [h.redacted.parse_render, h.parse_render, h.redacted_eq]
  have hhost : renderHost { u with password := "xxxxx" } = u.renderHost := rfl
  have htail : renderTail { u with password := "xxxxx" } = u.renderTail := rfl
  rw [hhost, htail]
  cases readBehind (SchemeKind.ofScheme u.scheme) u.scheme
      (u.renderHost.toList ++ significantEnd u.renderTail.toList) with
  | error fault => rfl
  | ok v => rfl

end Named

end SchemaLedger.Url
