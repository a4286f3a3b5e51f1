import SchemaLedger.Engine.Database
import SchemaLedger.Proofs.Connection.Credentials
import SchemaLedger.Proofs.Connection.Stripping
import SchemaLedger.Proofs.Driver.Actions
/-!
# Passwords in connection strings

Two connection strings that differ in their passwords alone are the same once the
passwords are masked. Whatever is said of a connection string before a factory gets to
work can be said of its masked form: its options, where the database is, and the string
for messages. So nothing in the log tells them apart if the factory does not, and the
factory of the engine only looks at the options and the place: `password_hidden`.
-/

namespace SchemaLedger

namespace ConnectionString

/-- The connection string with a mask for its password. -/
def masked (c : ConnectionString) : ConnectionString :=
  { c with url := c.url.redacted }

def withPassword (c : ConnectionString) (password : String) : ConnectionString :=
  { c with url := { c.url with password } }

theorem scheme_masked (c : ConnectionString) : c.masked.scheme = c.scheme := by
  simp only [masked, scheme, Url.redacted]
  split <;> rfl

theorem location_masked (c : ConnectionString) : c.masked.location = c.location := by
  simp only [masked, location, Url.redacted]
  split <;> rfl

theorem of_masked_eq {c c' : ConnectionString} (h : c.masked = c'.masked) :
    c.scheme = c'.scheme ∧ c.config = c'.config ∧ c.location = c'.location ∧
      c.redacted = c'.redacted := by
  have hconfig : c.masked.config = c'.masked.config := by rw [h]
  have hrender : c.masked.url.render = c'.masked.url.render := by rw [h]
  refine ⟨?_, hconfig, ?_, hrender⟩
  · rw [← c.scheme_masked, h, c'.scheme_masked]
  · rw [← c.location_masked, h, c'.location_masked]

theorem masked_withPassword {c : ConnectionString} {password : String}
    (hc : c.url.password ≠ "") (hpassword : password ≠ "") :
    (c.withPassword password).masked = c.masked := by
  simp only [masked, withPassword, Url.redacted, if_neg hc, hpassword, if_false]

/-! ## Reading -/

theorem withPairs_withPassword (u : Url) (pairs : List Form.Pair) (password : String) :
    withPairs { u with password } pairs = { withPairs u pairs with password } := by
  simp only [withPairs, withoutTrailingSpaces]
  split
  · split <;> rfl
  · rfl

theorem ofUrl_withPassword (base : Config) (u : Url) (password : String) :
    ofUrl base { u with password } =
      ((ofUrl base u).1.map (withPassword · password), (ofUrl base u).2) := by
  have hpairs : pairs { u with password } = pairs u := rfl
  rw [ofUrl, ofUrl, hpairs]
  cases (fold base (pairs u)).result with
  | error fault => rfl
  | ok r =>
      simp only [Except.map, withPairs_withPassword]
      rfl

/-- Another password in the text is another password in what is read, and nothing else;
the same lines are logged. -/
theorem parse_withPassword {text text' : String} {u : Url} {password : String}
    (hu : Url.parse text = .ok u) (hu' : Url.parse text' = .ok { u with password })
    (base : Config) :
    (parse base text').1 = (parse base text).1.map (withPassword · password) ∧
      (parse base text').2 = (parse base text).2 := by
  rw [parse_of_url hu, parse_of_url hu', ofUrl_withPassword]
  exact ⟨rfl, rfl⟩

theorem named_of_parse {base : Config} {text : String} {u : Url} {c : ConnectionString}
    (hu : Url.parse text = .ok u) (hpassword : u.password ≠ "")
    (hc : (parse base text).1 = .ok c) :
    c.scheme = u.scheme ∧ c.url.password = u.password ∧ c.url.Named := by
  obtain ⟨v, hv, hurl⟩ := exists_of_parse_ok hc
  obtain rfl : v = u := Except.ok.inj (hv.symm.trans hu)
  obtain ⟨path, query?, hparts, hshortens⟩ :=
    exists_withPairs v ((pairs v).filter (IsForeign ·))
  have hnamed := Url.named_of_parse hu hpassword
  obtain ⟨list, hlist⟩ := hnamed.path
  have hpath : path = v.path := by
    rcases hshortens with heq | ⟨text, n, -, hlonger⟩
    · exact heq
    · rw [hlist] at hlonger
      cases hlonger
  rw [scheme, hurl, hparts, hpath]
  exact ⟨rfl, rfl, hnamed.withQuery query?⟩

end ConnectionString

/-! ## Opening -/

variable {σ : Type}

/-- The factory logs the same for connection strings that differ in their passwords
alone. -/
def Factory.HidesPassword (factory : Factory σ) : Prop :=
  ∀ c c' : ConnectionString, c.masked = c'.masked →
    ∀ s, ((factory c).run s).2.log = ((factory c').run s).2.log

namespace Engine

theorem factory_congr (db : Database σ) (get : σ → State) (put : State → σ → σ)
    {c c' : ConnectionString} (h : c.masked = c'.masked) :
    factory db get put c = factory db get put c' := by
  obtain ⟨-, hconfig, hlocation, -⟩ := ConnectionString.of_masked_eq h
  rw [factory, factory, hlocation, hconfig]

theorem hidesPassword_factory (db : Database σ) (get : σ → State)
    (put : State → σ → σ) : (factory db get put).HidesPassword :=
  fun _ _ h s => by rw [factory_congr db get put h]

theorem hidesPassword_of_lookup_registry {db : Database σ} {get : σ → State}
    {put : State → σ → σ} {scheme : String} {f : Factory σ}
    (h : (registry db get put).factories.lookup scheme = some f) : f.HidesPassword := by
  have hone : (registry db get put).factories = [("duckdb", factory db get put)] := rfl
  rw [hone, List.lookup_cons] at h
  split at h
  · obtain rfl := Option.some.inj h
    exact hidesPassword_factory db get put
  · cases h

end Engine

namespace Registry

variable (r : Registry σ)

theorem run_connect_of_some {c : ConnectionString} {factory : Factory σ}
    (h : r.factories.lookup c.scheme = some factory) (s : Session σ) :
    (r.connect c).run s = (factory c).run
      (s.logged .debug ("Opening migration driver for " ++ c.redacted)) := by
  rw [connect, h]
  exact Action.run_bind_of_ok (Action.run_log .debug _ s) _

theorem log_connect_eq {c c' : ConnectionString} (h : c.masked = c'.masked)
    (hr : ∀ factory, r.factories.lookup c.scheme = some factory → factory.HidesPassword)
    (s : Session σ) : ((r.connect c).run s).2.log = ((r.connect c').run s).2.log := by
  obtain ⟨hscheme, -, -, hredacted⟩ := ConnectionString.of_masked_eq h
  cases hlookup : r.factories.lookup c.scheme with
  | none =>
      rw [connect, connect, ← hscheme, hlookup]
  | some factory =>
      rw [r.run_connect_of_some hlookup s, r.run_connect_of_some (hscheme ▸ hlookup) s,
        ← hredacted]
      exact hr factory hlookup c c' h _

theorem run_openWith (text : String) (base : Config) (s : Session σ) :
    (r.openWith text base).run s =
      let s' := { s with log := s.log ++ (ConnectionString.parse base text).2 }
      match (ConnectionString.parse base text).1 with
      | .error fault => (.error (.input fault), s')
      | .ok c => (r.connect c).run s' := by
  rw [openWith]
  cases ConnectionString.parse base text with
  | mk parsed lines =>
      have hlog : (Action.logAll lines : Action σ Unit).run s =
          (.ok (), { s with log := s.log ++ lines }) := rfl
      refine (Action.run_bind_of_ok hlog _).trans ?_
      cases parsed <;> rfl

end Registry

namespace ConnectionString

/-- The password has no part in what is logged. Two texts whose URLs differ in their
passwords alone lead to the same configuration and the same place, or to the same fault,
and to the same lines. The string for messages is the same, too: it is the URL with a
mask where the password stands, and is read as the URL is but for the mask. Opening a
driver then logs the same lines if the factory for the scheme does so, whatever the
session, as every factory of the engine's registry does. -/
theorem password_hidden {text text' : String} {u u' : Url}
    (hu : Url.parse text = .ok u) (hu' : Url.parse text' = .ok u')
    (hpassword : u.password ≠ "") (hpassword' : u'.password ≠ "")
    (hsame : { u with password := "" } = { u' with password := "" }) (base : Config) :
    (parse base text).2 = (parse base text').2 ∧
    (parse base text).1.map (fun c => (c.config, c.location, c.redacted)) =
      (parse base text').1.map (fun c => (c.config, c.location, c.redacted)) ∧
    (∀ c, (parse base text).1 = .ok c →
      let behind := "@" ++ c.url.renderHost ++ c.url.renderTail
      c.url.render =
        c.url.scheme ++ "://" ++ c.url.username ++ ":" ++ u.password ++ behind ∧
      c.redacted = c.url.scheme ++ "://" ++ c.url.username ++ ":xxxxx" ++ behind ∧
      Url.parse c.redacted =
        (Url.parse c.url.render).map fun v => { v with password := "xxxxx" }) ∧
    (∀ (σ : Type) (r : Registry σ),
      (∀ factory, r.factories.lookup u.scheme = some factory → factory.HidesPassword) →
      ∀ s, ((r.openWith text base).run s).2.log = ((r.openWith text' base).run s).2.log ∧
        ∀ c c', (parse base text).1 = .ok c → (parse base text').1 = .ok c' →
          ((r.connect c).run s).2.log = ((r.connect c').run s).2.log) ∧
    ∀ (σ : Type) (db : Database σ) (get : σ → Engine.State) (put : Engine.State → σ → σ)
      (scheme : String) factory,
      (Engine.registry db get put).factories.lookup scheme = some factory →
        factory.HidesPassword := by
  have hu'eq : { u with password := u'.password } = u' :=
    congrArg (fun v : Url => { v with password := u'.password }) hsame
  rw [← hu'eq] at hu'
  obtain ⟨hresult, hlines⟩ := parse_withPassword hu hu' base
  have hread (c : ConnectionString) (hc : (parse base text).1 = .ok c) :
      c.scheme = u.scheme ∧ c.masked = (c.withPassword u'.password).masked := by
    obtain ⟨hscheme, hcpassword, -⟩ := named_of_parse hu hpassword hc
    exact ⟨hscheme, (masked_withPassword (hcpassword ▸ hpassword) hpassword').symm⟩
  rw [hlines, hresult]
  refine ⟨rfl, ?_, fun c hc => ?_, fun σ r hr s => ⟨?_, ?_⟩,
    fun σ db get put scheme factory => Engine.hidesPassword_of_lookup_registry⟩
  · cases hc : (parse base text).1 with
    | error fault => rfl
    | ok c =>
        obtain ⟨-, hconfig, hlocation, hredacted⟩ := of_masked_eq (hread c hc).2
        simp only [Except.map, hconfig, hlocation, hredacted]
  · obtain ⟨-, hcpassword, hnamed⟩ := named_of_parse hu hpassword hc
    have hrender := hnamed.render_eq
    have hmask := hnamed.redacted.render_eq
    rw [hnamed.redacted_eq] at hmask
    rw [hcpassword] at hrender
    refine ⟨?_, ?_, hnamed.parse_render_redacted⟩
    · rw [hrender]
      simp only [String.append_assoc]
    · rw [redacted, hnamed.redacted_eq, hmask]
      simp only [String.append_assoc]
      rfl
  · simp only [r.run_openWith, hlines, hresult]
    cases hc : (parse base text).1 with
    | error fault => rfl
    | ok c =>
        obtain ⟨hscheme, hmasked⟩ := hread c hc
        exact r.log_connect_eq hmasked (hscheme ▸ hr) _
  · intro c c' hc hc'
    rw [hc] at hc'
    obtain rfl := Except.ok.inj hc'
    obtain ⟨hscheme, hmasked⟩ := hread c hc
    exact r.log_connect_eq hmasked (hscheme ▸ hr) s

/-- A colon in one of the passwords, which is written as an escape, and an option that
is taken out of the query. -/
theorem password_hidden_of_escaped_password :
    let text := "duckdb://admin:secret@db:1/app?x-multi-statement=true&k=v"
    let text' := "duckdb://admin:pass:word@db:1/app?x-multi-statement=true&k=v"
    let u (password : String) : Url :=
      { scheme := "duckdb", username := "admin", password
        host? := some (.name "db"), port? := some 1, path := .segments ["app".toList]
        query? := some "x-multi-statement=true&k=v" }
    Url.parse text = .ok (u "secret") ∧ Url.parse text' = .ok (u "pass%3Aword") ∧
    (parse {} text').1.map (fun c => (c.config, c.location, c.redacted)) =
      .ok ({ multiStatement := true }, "db/app", "duckdb://admin:xxxxx@db:1/app?k=v") ∧
    ∀ s : Session Engine.State,
      let r := Engine.registry Engine.database id fun new _ => new
      ((r.openWith text {}).run s).2.log = ((r.openWith text' {}).run s).2.log := by
  intro text text' u
  have hu : Url.parse text = .ok (u "secret") := by decide +kernel
  have hu' : Url.parse text' = .ok (u "pass%3Aword") := by decide +kernel
  obtain ⟨-, hshown, -, hlog, hengine⟩ :=
    password_hidden hu hu' (by decide) (by decide) rfl {}
  refine ⟨hu, hu', hshown.symm.trans (by decide +kernel), fun s => ?_⟩
  intro r
  exact (hlog _ r (hengine _ _ _ _ _) s).1

end ConnectionString

end SchemaLedger
