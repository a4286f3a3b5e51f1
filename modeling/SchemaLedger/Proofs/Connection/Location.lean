import Mathlib.Data.List.Basic
import Mathlib.Data.List.TakeWhile
import SchemaLedger.Proofs.Connection.Folding
import SchemaLedger.Proofs.Connection.Segments
import SchemaLedger.Proofs.Text.Trimming
/-!
# Where a file is

The path of a connection string is read as that of a URL, and where the database is
said to be is that path, escapes and all. So a path with a space, a letter beyond
ASCII or a dot segment is not the one that was written: `location_eq_iff` says for
which paths it is.
-/

namespace SchemaLedger.ConnectionString

/-- A path as it is written for a file: from the root, without control characters and
without what would end the path of a URL, and not ending in a space. -/
structure IsFilePath (p : String) : Prop where
  head : p.toList.head? = some '/'
  visible : ∀ c ∈ p.toList, 0x20 ≤ c.toNat
  within : ∀ c ∈ p.toList, Url.endsPath c = false
  last : p.toList.getLast? ≠ some ' '

theorem isIgnored_of_le {c : Char} (h : 0x20 ≤ c.toNat) : Url.isIgnored c = false := by
  have hne {d : Char} (hd : d.toNat < 0x20) : c ≠ d := by
    rintro rfl
    omega
  simp only [Url.isIgnored, Bool.or_eq_false_iff, beq_eq_false_iff_ne]
  exact ⟨⟨hne (by decide), hne (by decide)⟩, hne (by decide)⟩

theorem isMargin_eq_false {c : Char} (h : 0x20 ≤ c.toNat) (hspace : c ≠ ' ') :
    Url.isMargin c = false := by
  rw [Url.isMargin, decide_eq_false_iff_not]
  intro hle
  exact hspace (Char.toNat_inj.1 (Nat.le_antisymm hle h))

namespace IsFilePath

variable {p : String} {s : List Char}

theorem significant_eq (h : IsFilePath p) (hs : p.toList = '/' :: s) :
    Url.significant ("duckdb://" ++ p) = "duckdb://".toList ++ '/' :: s := by
  have hvisible : ∀ c ∈ "duckdb://".toList ++ '/' :: s, 0x20 ≤ c.toNat := by
    rw [← hs]
    exact List.forall_mem_append.2 ⟨by simp, h.visible⟩
  have hfirst (c : Char) (hc : ("duckdb://".toList ++ '/' :: s).head? = some c) :
      Url.isMargin c = false := by
    obtain rfl : 'd' = c := Option.some.inj hc
    decide
  have hlast (c : Char) (hc : ("duckdb://".toList ++ '/' :: s).getLast? = some c) :
      Url.isMargin c = false := by
    rw [List.getLast?_append_cons, ← hs] at hc
    refine isMargin_eq_false (h.visible c (List.mem_of_getLast? hc)) ?_
    rintro rfl
    exact h.last hc
  rw [Url.significant, String.toList_append, hs, Text.trim_eq_self hfirst hlast]
  exact List.filter_eq_self.2 fun c hc => by rw [isIgnored_of_le (hvisible c hc)]; rfl

theorem parse_url (h : IsFilePath p) (hs : p.toList = '/' :: s) :
    Url.parse ("duckdb://" ++ p) = .ok
      { scheme := "duckdb", host? := some (.name "")
        path := .segments (Path.segments .other s) } := by
  have hwithin : ∀ c ∈ s, (!Url.endsPath c) = true := by
    intro c hc
    rw [h.within c (by rw [hs]; exact List.mem_cons_of_mem _ hc)]
    rfl
  have hscheme : Url.readScheme? (Url.significant ("duckdb://" ++ p)) =
      some ("duckdb", '/' :: '/' :: '/' :: s) := by
    rw [h.significant_eq hs]
    rfl
  have hother : Url.readOther "duckdb" ('/' :: '/' :: '/' :: s) =
      .ok (Url.withPath .other
        { scheme := "duckdb", host? := some (.name ""), path := .segments [] } s) := rfl
  rw [Url.parse, hscheme]
  change Url.readOther "duckdb" _ = _
  rw [hother, Url.withPath, List.takeWhile_eq_self_iff.2 hwithin,
    List.dropWhile_eq_nil_iff.2 hwithin]
  rfl

theorem exists_parse (h : IsFilePath p) (hs : p.toList = '/' :: s) (base : Config) :
    ∃ c, (parse base ("duckdb://" ++ p)).1 = .ok c ∧ c.config = base ∧
      c.location = String.ofList (Path.render (Path.segments .other s)) := by
  let url : Url :=
    { scheme := "duckdb", host? := some (.name "")
      path := .segments (Path.segments .other s) }
  have hlocation : location ⟨url, base⟩ =
      "" ++ String.ofList (Path.render (Path.segments .other s)) := rfl
  refine ⟨⟨url, base⟩, ?_, rfl, hlocation.trans String.empty_append⟩
  rw [parse_of_url (h.parse_url hs)]
  rfl

end IsFilePath

/-- A path without dot segments is where the database is, with escapes; and the path
itself is, character for character, if and only if there is no dot segment and nothing
to escape in it. -/
theorem location_eq_iff {p : String} (h : IsFilePath p) (base : Config) :
    ∃ c, (parse base ("duckdb://" ++ p)).1 = .ok c ∧ c.config = base ∧
      ((∀ part ∈ Sql.cut '/' p.toList, ¬ Path.IsDot part) →
        c.location = String.ofList (Percent.encode Path.keep p.toList)) ∧
      (c.location = p ↔ (∀ ch ∈ p.toList, Path.keep ch = true) ∧
        ∀ part ∈ Sql.cut '/' p.toList, ¬ Path.IsDot part) := by
  obtain ⟨s, hs⟩ := List.head?_eq_some_iff.1 h.head
  obtain ⟨c, hc, hconfig, hlocation⟩ := h.exists_parse hs base
  have hparts : (∀ part ∈ Sql.cut '/' p.toList, ¬ Path.IsDot part) ↔
      ∀ part ∈ Sql.cut '/' s, ¬ Path.IsDot part := by
    rw [hs, Sql.cut, if_pos rfl, List.forall_mem_cons]
    exact and_iff_right Path.not_isDot_nil
  have hkeep : (∀ ch ∈ p.toList, Path.keep ch = true) ↔
      ∀ ch ∈ s, Path.keep ch = true := by
    rw [hs, List.forall_mem_cons]
    exact and_iff_right (by decide)
  refine ⟨c, hc, hconfig, fun hdots => ?_, ?_⟩
  · rw [hlocation, Path.render_segments_of_forall_not_isDot (hparts.1 hdots), hs]
  · rw [hlocation, hkeep, hparts, ← Path.render_segments_eq_iff, ← String.toList_inj,
      String.toList_ofList, hs]

/-- A plain path with repeated slashes and points in its names, and a percent sign. -/
theorem location_eq_of_plain_path :
    IsFilePath "/data//v1.2/50%.db" ∧
    ∃ c, (parse {} "duckdb:///data//v1.2/50%.db").1 = .ok c ∧
      c.location = "/data//v1.2/50%.db" := by
  have h : IsFilePath "/data//v1.2/50%.db" :=
    ⟨by decide, by simp, by simp [Url.endsPath], by decide⟩
  obtain ⟨c, hc, -, -, hiff⟩ := location_eq_iff h {}
  exact ⟨h, c, hc, hiff.2 ⟨List.all_eq_true.1 (by decide), by decide⟩⟩

/-- With a space in the path, the database is said to be in another place than the one
that was written. -/
theorem location_not_as_written :
    IsFilePath "/a b/c" ∧
    ∃ c, (parse {} ("duckdb://" ++ "/a b/c")).1 = .ok c ∧
      c.location = "/a%20b/c" ∧ c.location ≠ "/a b/c" := by
  refine ⟨⟨by decide, by simp, by simp [Url.endsPath], by decide⟩,
    ⟨{ scheme := "duckdb", host? := some (.name "")
       path := .segments ["a%20b".toList, "c".toList] }, {}⟩, ?_, ?_, ?_⟩
  all_goals decide +kernel

end SchemaLedger.ConnectionString
