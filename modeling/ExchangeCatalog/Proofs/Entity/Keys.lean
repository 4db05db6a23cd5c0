import ExchangeCatalog.Catalog

/-!
# Keys of columns

The columns of an entity have names of their own, but two names may have one key in JSON, and then
no object could have a value for both. In the entities of the catalog this does not happen, and no
column has the key of the identifier either.

## Main definitions

* `Entity.HasDistinctKeys` — no two columns have one key in JSON

## Main results

* `Catalog.hasDistinctKeys_of_mem_routes` — so it is with every entity of the catalog
-/

namespace ExchangeCatalog

namespace Entity

/-- No two columns of an entity have one key in JSON, and none has that of the identifier. -/
def HasDistinctKeys (e : Entity) : Prop := (e.fields.map Column.key).Nodup

instance (e : Entity) : Decidable e.HasDistinctKeys := by
  unfold HasDistinctKeys
  infer_instance

variable {e : Entity}

theorem HasDistinctKeys.nodup (h : e.HasDistinctKeys) : (e.columns.map Column.key).Nodup :=
  (List.nodup_cons.mp h).2

/-- No column has the key of the identifier. -/
theorem HasDistinctKeys.ne_id (h : e.HasDistinctKeys) {c : Column} (hc : c ∈ e.columns) :
    c.key ≠ "id" := by
  have hid : Column.id.key = "id" := by decide
  exact fun hkey => (List.nodup_cons.mp h).1 (hid ▸ hkey ▸ List.mem_map_of_mem hc)

end Entity

/-- The columns of every entity of the catalog have keys of their own. -/
theorem Catalog.hasDistinctKeys_of_mem_routes : ∀ p ∈ routes, p.2.HasDistinctKeys := by
  decide +kernel

end ExchangeCatalog
