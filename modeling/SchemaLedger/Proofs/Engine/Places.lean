import SchemaLedger.Proofs.Engine.Creation
import SchemaLedger.Proofs.Sql.Naming
/-!
# Where names lead

Names are compared without regard to case when a path is followed, and case counts
when the catalog is searched. A table that is created under a name is found by a
search for that name if and only if the name is plain: it has no catalog, and its
schema is spelled as it was created (`schemaName_eq_iff`).
-/

namespace SchemaLedger.Engine

open Sql

theorem sameName_self (a : String) : sameName a a = true := by
  simp [sameName]

theorem sameName_congr {a b : String} (h : sameName a b = true) :
    sameName a = sameName b := by
  funext x
  rw [sameName, beq_iff_eq] at h
  rw [sameName, sameName, h]

theorem toLower_eq_dot {c : Char} (h : c.toLower = '.') : c = '.' := by
  rw [Char.toLower] at h
  split at h
  · next hc =>
      have hval : c.val + 32 = 46 := congrArg Char.val h
      have hlower : 65 ≤ c.val.toNat := hc.1
      have hupper : c.val.toNat ≤ 90 := hc.2
      have hsum := congrArg UInt32.toNat hval
      rw [UInt32.toNat_add] at hsum
      change (c.val.toNat + 32) % 4294967296 = 46 at hsum
      omega
  · exact h

theorem sameName_dot {a b : String} (h : sameName a b = true)
    (hdot : '.' ∈ b.toList) : '.' ∈ a.toList := by
  rw [sameName, beq_iff_eq] at h
  have hlower : '.' ∈ (a.toLower).toList := by
    rw [h, String.toLower, String.toList_map]
    exact List.mem_map.2 ⟨'.', hdot, rfl⟩
  rw [String.toLower, String.toList_map] at hlower
  obtain ⟨c, hc, heq⟩ := List.mem_map.1 hlower
  rwa [← toLower_eq_dot heq]

variable {c c' : Catalogs} {name : String} {place : Place} {path : Path}

theorem find?_schemaName (h : c.target false path = .ok place) :
    c.stored.schemas.find? (sameName place.schema) = some (c.schemaName place) := by
  obtain ⟨-, -, -, hstored, hschema⟩ := places_of_target h
  rw [Catalog.hasSchema, List.any_eq_true, ← List.find?_isSome] at hschema
  rw [Catalogs.schemaName, hstored, Catalogs.get, if_neg (by simp)]
  obtain ⟨schema, hfind⟩ := Option.isSome_iff_exists.1 hschema
  rw [hfind, Option.getD_some]

/-- Where something is created depends on the schemas that are stored. -/
theorem target_congr (hname : c'.name = c.name)
    (hschemas : c'.stored.schemas = c.stored.schemas) (path : Path) :
    c'.target false path = c.target false path := by
  have hhas : c'.stored.hasSchema = c.stored.hasSchema := by
    funext schema
    rw [Catalog.hasSchema, Catalog.hasSchema, hschemas]
  have hplaces : ∀ qualifiers, c'.places qualifiers = c.places qualifiers := by
    intro qualifiers
    match qualifiers with
    | [] => rfl
    | [_] => rw [Catalogs.places, Catalogs.places, hname, hhas]
    | [_, _] => rw [Catalogs.places, Catalogs.places, hname]
    | _ :: _ :: _ :: _ => rfl
  rw [Catalogs.target, Catalogs.target, hplaces]
  simp only [Catalogs.get, Bool.false_eq_true, if_false, hhas]

theorem schemaName_congr (hschemas : c'.stored.schemas = c.stored.schemas)
    (hstored : place.temporary = false) :
    c'.schemaName place = c.schemaName place := by
  rw [Catalogs.schemaName, Catalogs.schemaName, hstored]
  simp only [Catalogs.get, Bool.false_eq_true, if_false, hschemas]

/-- The name has no catalog, and its schema is there, spelled as it was created. -/
structure IsPlain (c : Catalogs) (name : String) : Prop where
  dots : name.toList.count '.' ≤ 1
  spelled : c.stored.schemas.find? (sameName (splitName name).schema) =
    some (splitName name).schema

theorem isPlain_congr (hschemas : c'.stored.schemas = c.stored.schemas) :
    IsPlain c' name ↔ IsPlain c name := by
  constructor
  · rintro ⟨hdots, hspelled⟩
    exact ⟨hdots, by rw [← hschemas, hspelled]⟩
  · rintro ⟨hdots, hspelled⟩
    exact ⟨hdots, by rw [hschemas, hspelled]⟩

theorem hasSchema_of_find? {catalog : Catalog} {schema : String}
    {p : String → Bool} (h : catalog.schemas.find? p = some schema) :
    catalog.hasSchema schema = true := by
  rw [Catalog.hasSchema, List.any_eq_true]
  exact ⟨schema, List.mem_of_find?_eq_some h, sameName_self schema⟩

/-- A name with a schema in front of it leads to that schema, unless there is no
such schema and a catalog is meant. -/
theorem place_of_target_pair {schema table : String}
    (h : c.target false [schema, table] = .ok place) :
    c.stored.hasSchema schema = false ∨
      (sameName schema Catalogs.temporaryName || sameName schema c.name) = false ∧
        sameName place.schema = sameName schema := by
  obtain ⟨places, hplaces, hfind, -, -⟩ := places_of_target h
  change c.places [schema] = .ok places at hplaces
  rw [Catalogs.places] at hplaces
  split at hplaces
  · split at hplaces
    · cases hplaces
    · next hschema => exact Or.inl (by simpa using hschema)
  · next halias =>
      refine Or.inr ⟨by simpa using halias, ?_⟩
      split at hplaces
      · next hmain =>
          cases hplaces
          cases hfind
          exact (sameName_congr hmain).symm
      · cases hplaces
        cases hfind
        rfl

theorem schemaName_eq_iff_of_pair {schema table : String}
    (h : c.target false [schema, table] = .ok place) :
    c.schemaName place = schema ↔
      c.stored.schemas.find? (sameName schema) = some schema := by
  have hcreated := find?_schemaName h
  obtain habsent | ⟨-, hsame⟩ := place_of_target_pair h
  · have hnot : ∀ p : String → Bool, c.stored.schemas.find? p ≠ some schema := by
      intro p hfind
      rw [hasSchema_of_find? hfind] at habsent
      cases habsent
    refine iff_of_false (fun heq => ?_) (hnot _)
    rw [heq] at hcreated
    exact hnot _ hcreated
  · rw [← hsame, hcreated, Option.some_inj]

/-- Behind a catalog the schema is the one of the path. -/
theorem schema_of_target_triple {catalog schema table : String}
    (h : c.target false [catalog, schema, table] = .ok place) :
    place.schema = schema := by
  obtain ⟨places, hplaces, hfind, -, -⟩ := places_of_target h
  change c.places [catalog, schema] = .ok places at hplaces
  rw [Catalogs.places] at hplaces
  split at hplaces
  · cases hplaces
    cases hfind
  · split at hplaces
    · cases hplaces
      cases hfind
      rfl
    · cases hplaces

/-- A table is created in the schema that is looked for if and only if the name
is plain. -/
theorem schemaName_eq_iff (h : c.target false (tableParts name) = .ok place) :
    c.schemaName place = (splitName name).schema ↔ IsPlain c name := by
  have hcreated := find?_schemaName h
  have hlength := length_tableParts name
  have hthree := length_le_of_target h
  by_cases hdots : name.toList.count '.' ≤ 1
  · rw [tableParts_eq_pair hdots] at h
    rw [schemaName_eq_iff_of_pair h]
    exact ⟨fun hspelled => ⟨hdots, hspelled⟩, IsPlain.spelled⟩
  · refine iff_of_false (fun heq => ?_) fun hplain => hdots hplain.dots
    have hcount := count_schema name
    have hschema : '.' ∈ (splitName name).schema.toList := by
      rw [← List.count_pos_iff, hcount]
      omega
    match hparts : tableParts name with
    | [catalog, schema, table] =>
        rw [hparts] at h
        rw [schema_of_target_triple h, heq] at hcreated
        have hpart : schema ∈ (tableParts name).dropLast := by
          simp [hparts]
        exact not_mem_of_mem_tableParts hpart
          (sameName_dot (List.find?_some hcreated) hschema)
    | [] | [_] | [_, _] | _ :: _ :: _ :: _ :: _ =>
        rw [hparts] at hlength hthree
        simp only [List.length_cons, List.length_nil] at hlength hthree
        omega

theorem find?_insert_self {catalog : Catalog} {schema table : String}
    {d : Definition} (hfree : catalog.find? d.kind schema table = none) :
    (catalog.insert ⟨schema, table, d⟩).find? d.kind schema table =
      some ⟨schema, table, d⟩ := by
  have hmeant : Catalog.isMeant d.kind schema table ⟨schema, table, d⟩ = true := by
    simp [Catalog.isMeant, sharesNames, sameName_self]
  rw [Catalog.find?, Catalog.insert, List.find?_append]
  rw [Catalog.find?] at hfree
  rw [hfree, Option.none_or, List.find?_cons_of_pos hmeant]

theorem hasRelation_insert (catalog : Catalog) (e : Entry)
    (schema table : String) :
    (catalog.insert e).hasRelation schema table =
      (catalog.hasRelation schema table ||
        (sharesNames .table e.definition.kind && e.schema == schema &&
          e.name == table)) := by
  simp [Catalog.hasRelation, Catalog.insert]

/-- Nothing stands in front of the tables and functions of the version store. -/
structure Undisturbed (c : Catalogs) : Prop where
  temporary : c.temporary.entries = []
  max : c.stored.find? .scalarMacro defaultSchema "max" = none

theorem find?_of_entries_nil {catalog : Catalog} (h : catalog.entries = [])
    (kind : ObjectKind) (schema name : String) :
    catalog.find? kind schema name = none := by
  rw [Catalog.find?, h, List.find?_nil]

theorem find?_congr {a b : String} (h : sameName a = sameName b)
    (catalog : Catalog) (kind : ObjectKind) (name : String) :
    catalog.find? kind a name = catalog.find? kind b name := by
  have hmeant : Catalog.isMeant kind a name = Catalog.isMeant kind b name := by
    funext e
    rw [Catalog.isMeant, Catalog.isMeant, h]
  rw [Catalog.find?, Catalog.find?, hmeant]

theorem find?_of_places {places : List Place}
    (h : c.places path.dropLast = .ok places) (kind : ObjectKind) :
    c.find? kind path = .ok (places.findSome? fun p =>
      ((c.get p.temporary).find? kind p.schema (path.getLast?.getD "")).map
        (p, ·)) := by
  rw [Catalogs.find?, h]
  rfl

theorem Undisturbed.find?_max (h : Undisturbed c) :
    c.find? .scalarMacro ["max"] = .ok none := by
  have htemporary :=
    find?_of_entries_nil h.temporary .scalarMacro defaultSchema "max"
  have hplaces : c.places (["max"] : Path).dropLast =
      .ok [⟨true, defaultSchema⟩, ⟨false, defaultSchema⟩] := rfl
  rw [find?_of_places hplaces]
  simp [Catalogs.get, htemporary, h.max]

theorem Undisturbed.find?_table {schema table : String} {e : Entry}
    (h : Undisturbed c)
    (halias : (sameName schema Catalogs.temporaryName || sameName schema c.name) =
      false)
    (he : c.stored.find? .table schema table = some e) :
    ∃ place, c.find? .table [schema, table] = .ok (some (place, e)) := by
  by_cases hmain : sameName schema defaultSchema = true
  · have hplaces : c.places ([schema, table] : Path).dropLast =
        .ok [⟨true, defaultSchema⟩, ⟨false, defaultSchema⟩] := by
      change c.places [schema] = _
      rw [Catalogs.places, if_neg (by simp [halias]), if_pos hmain]
    have htemporary := find?_of_entries_nil h.temporary .table defaultSchema table
    rw [find?_congr (sameName_congr hmain)] at he
    refine ⟨⟨false, defaultSchema⟩, ?_⟩
    rw [find?_of_places hplaces]
    simp [Catalogs.get, htemporary, he]
  · have hplaces : c.places ([schema, table] : Path).dropLast =
        .ok [⟨false, schema⟩] := by
      change c.places [schema] = _
      rw [Catalogs.places, if_neg (by simp [halias]), if_neg hmain]
    refine ⟨⟨false, schema⟩, ?_⟩
    rw [find?_of_places hplaces]
    simp [Catalogs.get, he]

end SchemaLedger.Engine
