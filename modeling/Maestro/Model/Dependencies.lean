import Maestro.Model.Lemmas.Parents

/-!
# 依存の発見

`TablesParents` が要約の表の親として挙げる表を述べる。問い合わせが親を `[…]` か `` `…` `` で引用して
`FROM` や `JOIN` の直後に書けば、その表は親に挙がる。引用せずに `ds.table` と書けば、`ParseTableSpec` が
三つの空の文字列を返すので、親は一つも挙がらない。
-/

namespace Maestro.Model

open Go Bq

theorem mem_tablesInQuery_of_mem_parentNames {c : Table} {s : String} (h : s ∈ c.parentNames) :
    s ∈ tablesInQuery c.query := by
  unfold Table.parentNames at h
  split at h
  · simp at h
  · exact h

/-- 引用されていない名前だけを書く問い合わせの表には、`TablesParents` は親を一つも挙げない
（キーが `.` の表、つまりデータセットも名前も空の表はないとする）。 -/
theorem tablesParents_of_unquoted (projectId : String) (tables : List Table) (dbs : List Db)
    (c : Table)
    (hdb : ∀ t ∈ tables, t.isImport → ∃ d ∈ dbs, d.id = t.importDbId)
    (hunq : ∀ s ∈ tablesInQuery c.query, Unquoted s)
    (hdot : ∀ t ∈ tables, tableKey (importDbsAsMap dbs) t ≠ some ".") :
    ∃ r, tablesParents projectId (.ok tables) (.ok dbs) [c] = some (.ok r) ∧ r c.name = some [] := by
  have hunq' : ∀ s ∈ c.parentNames, Unquoted s := fun s hs =>
    hunq s (mem_tablesInQuery_of_mem_parentNames hs)
  obtain ⟨all, hall, hnone, -⟩ := tablesAsMap_spec hdb
  obtain ⟨ps, hps, hmem⟩ := @mem_singleTableParents projectId c all
    fun s hs h => (hunq' s hs).2 (by subst h; decide)
  have : ps = [] := List.eq_nil_iff_forall_not_mem.2 fun t ht => by
    obtain ⟨s, hs, proj, ds, name, hp, -, -, ht⟩ := (hmem t).1 ht
    rw [parseTableSpec_of_unquoted (hunq' s hs)] at hp
    cases hp
    rw [show "" ++ "." ++ "" = "." from rfl, hnone "." hdot] at ht
    cases ht
  exact tablesParents_single hall (this ▸ hps)

theorem tablesParents_of_unquoted_join :
    ∃ r, tablesParents "proj"
      (.ok [{ id := 1, name := "A", dataset := "ds" }, { id := 2, name := "B", dataset := "ds" },
        { id := 3, name := "C", dataset := "ds", query := "SELECT * FROM ds.A JOIN ds.B" }]) (.ok [])
      [{ id := 3, name := "C", dataset := "ds", query := "SELECT * FROM ds.A JOIN ds.B" }] =
        some (.ok r) ∧ r "C" = some [] :=
  tablesParents_of_unquoted "proj" _ [] _ (by decide) (by decide) (by decide)

/-- 表の名前を引用した四つの形：`` `D.N` ``、`` `P.D.N` ``、`[D.N]`、`[P:D.N]`。 -/
def QuotedName (projectId ds name tok : String) : Prop :=
  tok = "`" ++ ds ++ "." ++ name ++ "`" ∨
  tok = "`" ++ projectId ++ "." ++ ds ++ "." ++ name ++ "`" ∨
  tok = "[" ++ ds ++ "." ++ name ++ "]" ∨
  tok = "[" ++ projectId ++ ":" ++ ds ++ "." ++ name ++ "]"

section Quoted

variable {projectId ds name tok : String}

theorem head_of_quotedName (hq : QuotedName projectId ds name tok) :
    tok.toList.head? = some '`' ∨ tok.toList.head? = some '[' := by
  rcases hq with rfl | rfl | rfl | rfl <;> simp [toList_append]

/-- 名前や区切りの記号を含まない部分からなる引用の形は、正しく分けられる。 -/
theorem parseTableSpec_of_quotedName (hq : QuotedName projectId ds name tok)
    (hds : '.' ∉ ds.toList ∧ ':' ∉ ds.toList) (hname : '.' ∉ name.toList ∧ ':' ∉ name.toList)
    (hproj : '.' ∉ projectId.toList ∧ ':' ∉ projectId.toList) :
    ∃ proj, parseTableSpec tok = some (proj, ds, name) ∧ (proj = "" ∨ proj = projectId) := by
  rcases hq with rfl | rfl | rfl | rfl
  · exact ⟨"", parseTableSpec_backquoted hds.1 hname.1, .inl rfl⟩
  · exact ⟨projectId, parseTableSpec_backquoted_project hproj.1 hds.1, .inr rfl⟩
  · exact ⟨"", parseTableSpec_bracketed hds.1 hds.2 hname.2, .inl rfl⟩
  · exact ⟨projectId, parseTableSpec_bracketed_project hproj.2 hds.1, .inr rfl⟩

end Quoted

/-- 要約の表の問い合わせが、注釈の外で、`FROM`、`JOIN` か `TABLE_DATE_RANGE` の直後に、カタログの表 `t` を
引用した形で書けば、`TablesParents` は `t` を親に挙げる。`t` のキーは生きている表の中でただ一つで、
要約の表自身のデータセットと名前ではなく、部分に `.` と `:` を含まないとする。 -/
theorem mem_tablesParents_of_quoted (projectId : String) (tables : List Table) (dbs : List Db)
    (c t : Table) (ds name kw tok : String)
    (hdb : ∀ t ∈ tables, t.isImport → ∃ d ∈ dbs, d.id = t.importDbId)
    (hc : c.isImport = false)
    (ht : t ∈ tables) (hkey : tableKey (importDbsAsMap dbs) t = some (ds ++ "." ++ name))
    (huniq : ∀ t' ∈ tables, tableKey (importDbsAsMap dbs) t' = some (ds ++ "." ++ name) → t' = t)
    (hself : ¬(c.dataset = ds ∧ c.name = name))
    (hds : '.' ∉ ds.toList ∧ ':' ∉ ds.toList) (hname : '.' ∉ name.toList ∧ ':' ∉ name.toList)
    (hproj : '.' ∉ projectId.toList ∧ ':' ∉ projectId.toList)
    (htok : [kw, tok] <:+: tokens (removeSQLComments c.query)) (hkw : isKeyword (toLower kw))
    (hq : QuotedName projectId ds name tok)
    (hpanic : "`" ∉ tablesInQuery c.query) :
    ∃ r, tablesParents projectId (.ok tables) (.ok dbs) [c] = some (.ok r) ∧
      ∃ ps, r c.name = some ps ∧ t ∈ ps := by
  have hacc : accepted (toLower tok) := by
    rcases head_of_quotedName hq with h | h
    · exact accepted_of_head (.inl rfl) h
    · exact accepted_of_head (.inr rfl) h
  have htok' : tok ∈ c.parentNames := by
    simpa [Table.parentNames, hc] using mem_tablesInQuery.2 ⟨kw, htok, hkw, hacc⟩
  obtain ⟨all, hall, -, hone⟩ := tablesAsMap_spec hdb
  obtain ⟨ps, hps, hmem⟩ := @mem_singleTableParents projectId c all
    fun s hs h => hpanic (h ▸ mem_tablesInQuery_of_mem_parentNames hs)
  obtain ⟨proj, hp, hpj⟩ := parseTableSpec_of_quotedName hq hds hname hproj
  obtain ⟨r, hr, hrc⟩ := tablesParents_single hall hps
  exact ⟨r, hr, ps, hrc, (hmem t).2
    ⟨tok, htok', proj, ds, name, hp, hpj, hself, hone _ t ht hkey huniq⟩⟩

theorem mem_tablesParents_of_quoted_backquoted :
    ∃ r, tablesParents "proj"
      (.ok [{ id := 1, name := "A", dataset := "ds" },
        { id := 2, name := "C", dataset := "ds", query := "SELECT * FROM `ds.A`" }]) (.ok [])
      [{ id := 2, name := "C", dataset := "ds", query := "SELECT * FROM `ds.A`" }] = some (.ok r) ∧
      ∃ ps, r "C" = some ps ∧ { id := 1, name := "A", dataset := "ds" } ∈ ps :=
  mem_tablesParents_of_quoted "proj" _ [] _ _ "ds" "A" "FROM" "`ds.A`" (by decide) (by rfl)
    (by decide) (by rfl) (by decide) (by decide) (by decide) (by decide) (by decide)
    (by exact ⟨["SELECT", "*"], [], by decide⟩) (by rfl) (by exact .inl rfl) (by decide)

end Maestro.Model
