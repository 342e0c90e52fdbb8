import StreamTables.Proofs.Schema.Genuine
import StreamTables.Proofs.Schema.Serving
import StreamTables.Proofs.Traversal

/-!
# Rebuilding what was rebuilt

A schema is rebuilt for a store, for serving, or down to its genuine columns, and what comes out is
a schema that may be rebuilt again: perhaps years later, when there is a newer version of the
pseudocolumns.  Nothing of the first rebuild is left then.  A rebuild only puts columns behind the
genuine ones that are not genuine themselves, and a name that is reserved under one version is
reserved under every newer one, so the second rebuild takes them all out again before it starts.

## What is here

* `Rebuild`, `Schema.rebuild`: the three rebuilds.
* `Schema.of_rebuild`: what a rebuild puts behind the genuine columns is not genuine.
* `Schema.rebuild_congr`: a rebuild sees the key and the genuine columns only.
* `Schema.rebuild_of_rebuild`: a rebuild under a newer version does not see the first one.
-/

set_option autoImplicit false

namespace StreamTables

/-- What a schema is rebuilt for. -/
inductive Rebuild where
  /-- The genuine columns alone. -/
  | genuine
  /-- A store. -/
  | stored
  /-- Serving, with or without window bounds. -/
  | served (windowed : Bool)

namespace Schema

variable {s t : Schema} {v w : Version} {r : Rebuild}

/-- The schema rebuilt under a version. -/
def rebuild (s : Schema) (v : Version) : Rebuild → Except Error Schema
  | .genuine => .ok (s.genuine v)
  | .stored => .ok (s.stored v)
  | .served windowed => s.served windowed v

/-! ## What a rebuild consists of -/

/-- **A rebuild keeps the key and the genuine columns**, and what it puts behind them is not
genuine. -/
theorem of_rebuild (h : s.rebuild v r = .ok t) :
    t.key = s.key ∧ ∃ added, t.value = (s.genuine v).value ++ added ∧
      ∀ f ∈ added, s.isGenuine v f.name = false := by
  cases r with
  | genuine =>
    cases h
    exact ⟨rfl, [], (List.append_nil _).symm, List.forall_mem_nil _⟩
  | stored =>
    cases h
    exact ⟨rfl, _, rfl, isGenuine_eq_false_of_mem_map fun _ hc =>
      v.isSystemColumn_of_mem_storedColumns hc⟩
  | served windowed =>
    obtain ⟨hkey, hvalue⟩ := of_served h
    exact ⟨hkey, s.servedFields windowed v,
      by rw [hvalue, servedFields, List.append_assoc, List.append_assoc, List.append_assoc],
      isGenuine_eq_false_of_mem_servedFields⟩

/-! ## What a rebuild sees -/

theorem isGenuine_congr (h : t.key = s.key) (name : String) :
    t.isGenuine v name = s.isGenuine v name := by
  rw [isGenuine, isGenuine, isKey, isKey, h]

/-- **A rebuild sees the key and the genuine columns only.** -/
theorem rebuild_congr (hkey : t.key = s.key) (hgenuine : t.genuine w = s.genuine w)
    (r : Rebuild) : t.rebuild w r = s.rebuild w r := by
  cases r with
  | genuine => exact congrArg Except.ok hgenuine
  | stored =>
    refine congrArg Except.ok (Schema.ext hkey ?_)
    exact congrArg (fun g : Schema => g.value ++ w.storedColumns.map SystemColumn.field) hgenuine
  | served windowed => rw [rebuild, rebuild, served, served, hkey, hgenuine]

/-- **The genuine columns under a newer version are those of the schema before it was rebuilt.** -/
theorem genuine_of_rebuild (hvw : v ≤ w) (h : s.rebuild v r = .ok t) :
    t.genuine w = s.genuine w := by
  obtain ⟨hkey, added, hvalue, hadded⟩ := of_rebuild h
  refine Schema.ext hkey ?_
  have hnone : added.filter (fun f => s.isGenuine w f.name) = [] := by
    refine List.filter_eq_nil_iff.2 fun f hf hgenuine => ?_
    exact absurd (isGenuine_anti hvw hgenuine) (Bool.eq_false_iff.1 (hadded f hf))
  have hall : (s.value.filter fun f => s.isGenuine v f.name).filter (fun f => s.isGenuine w f.name)
      = s.value.filter fun f => s.isGenuine w f.name := by
    rw [List.filter_filter]
    refine List.filter_congr fun f _ => ?_
    cases hgenuine : s.isGenuine w f.name with
    | false => rfl
    | true => rw [isGenuine_anti hvw hgenuine]; rfl
  rw [value_genuine, value_genuine, hvalue, List.filter_append]
  simp only [isGenuine_congr hkey]
  rw [hnone, List.append_nil, value_genuine, hall]

/-- A schema without other columns is its own genuine part. -/
theorem genuine_eq_self (h : ∀ f ∈ s.value, s.isGenuine w f.name = true) : s.genuine w = s :=
  Schema.ext rfl (List.filter_eq_self.2 h)

/-- **Rebuilding a schema that was rebuilt** under the same version or an older one comes to
rebuilding the schema that it was made of: the result is the same schema, or the same error.  So a
rebuild that is made twice changes nothing the second time, and if all columns were genuine, they
are all that is left once the others are taken out. -/
theorem rebuild_of_rebuild (hvw : v ≤ w) (h : s.rebuild v r = .ok t) :
    (∀ r', t.rebuild w r' = s.rebuild w r') ∧ t.rebuild v r = .ok t ∧
      ((∀ f ∈ s.value, s.isGenuine w f.name = true) → t.genuine w = s) := by
  have hkey : t.key = s.key := (of_rebuild h).1
  refine ⟨rebuild_congr hkey (genuine_of_rebuild hvw h), ?_, fun hall => ?_⟩
  · rw [rebuild_congr hkey (genuine_of_rebuild (Nat.le_refl v) h) r, h]
  · rw [genuine_of_rebuild hvw h, genuine_eq_self hall]

/-- A table of accounts. -/
def accounts : Schema where
  key := [⟨"ACCOUNT", .primitive .integer⟩]
  value := [⟨"OWNER", .primitive .string⟩, ⟨"BALANCE", .decimal 10 2⟩]
  nodup_key := by decide
  nodup_value := by decide

/-- Accounts that were served from windows under the first version, and are stored under the
current one: there is nothing left of the bounds. -/
theorem rebuild_of_rebuild_accounts :
    ∃ t, accounts.rebuild .legacy (.served true) = .ok t ∧
      t.value.map Field.name =
        ["OWNER", "BALANCE", "ROWTIME", "ACCOUNT", "WINDOWSTART", "WINDOWEND"] ∧
      t.rebuild .current .stored = accounts.rebuild .current .stored ∧
      t.rebuild .current (.served false) = accounts.rebuild .current (.served false) ∧
      t.rebuild .legacy (.served true) = .ok t ∧ t.genuine .current = accounts := by
  obtain ⟨t, ht, hnames⟩ : ∃ t ∈ (accounts.rebuild .legacy (.served true)).toOption,
      t.value.map Field.name =
        ["OWNER", "BALANCE", "ROWTIME", "ACCOUNT", "WINDOWSTART", "WINDOWEND"] := by decide
  rw [Option.mem_def, Except.toOption_eq_some_iff] at ht
  obtain ⟨hrebuild, hagain, hback⟩ := rebuild_of_rebuild (Version.le_current .legacy) ht
  exact ⟨t, ht, hnames, hrebuild .stored, hrebuild (.served false), hagain, hback (by decide)⟩

end Schema
end StreamTables
