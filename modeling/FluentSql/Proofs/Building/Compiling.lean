import FluentSql.Proofs.Alignment.Selecting
import FluentSql.Proofs.Building.Data

/-!
# Compiling noted queries

Compiling a query of a noted store runs no extension and changes nothing.  The
text fits the values that the query is bound to.

* `ran_consult` is a compilation that asks nothing.
* `QueryId.toSql_aligned` and `QueryId.toExistsSql_aligned` are the select
  statement and the question whether there are rows.
-/

namespace FluentSql

/-- A compilation that asks nothing is done at once. -/
theorem ran_consult {α : Type} {run : Runner} {compile : Store → KnownAnswers → Except Failure α}
    {s s' : Store} {v : α} (h : AsksNothing (compile s [])) :
    Ran (consult run compile) s v s' ↔ compile s [] = .ok v ∧ s' = s := by
  unfold consult requestLimit
  rw [consultFrom, ran_bind]
  refine ⟨?_, ?_⟩
  · rintro ⟨_, _, hget, hrun⟩
    obtain ⟨rfl, rfl⟩ := ran_get.1 hget
    split at hrun
    · rename_i q request hasks
      exact absurd hasks (h q request)
    · exact ran_ofExcept.1 hrun
  · rintro ⟨hok, rfl⟩
    refine ⟨s', s', ran_get.2 ⟨rfl, rfl⟩, ?_⟩
    split
    · rename_i q request hasks
      exact absurd hasks (h q request)
    · exact ran_ofExcept.2 ⟨hok, rfl⟩

section

variable {g : Grammar} {p : String} {s s' : Store} {notes : QueryId → Notes} {run : Runner}
variable {t : QueryId}

theorem ran_compile {α : Type} {method : String} {f : Grammar → Attached → Query → Except Failure α}
    {v : α} (hs : s.Noted g notes) (h : AsksNothing (s.compiled [] t method f)) :
    Ran (t.compile run method f) s v s' ↔ s.compiled [] t method f = .ok v ∧ s' = s := by
  have hsame : s.settled.compiled [] t method f = s.compiled [] t method f := by
    rw [Store.settled_eq hs.still]
  have hrun : Ran (consult run fun s known => s.settled.compiled known t method f) s v s' ↔
      s.settled.compiled [] t method f = .ok v ∧ s' = s := ran_consult (hsame ▸ h)
  rwa [hsame] at hrun

/-- A compilation that mirrors that of the store with its values written in. -/
theorem compile_aligned (hg : g.Compiles p) (hs : s.Noted g notes) (ht : s.Stands notes t)
    {vs : List Value} {method : String} {f : Grammar → Attached → Query → Except Failure String}
    {f' : Literals → Grammar → Attached → Query → Except Failure String}
    (hf : ∀ lit attached attached', MirrorsAttached lit s notes attached attached' →
      attached'.canCopy = (s.inlined lit notes).canCopy →
      MirrorsFill lit (f g attached (s.query t)) vs
        (f' lit g attached' ((s.query t).inlined lit (notes t))))
    {sql : String} (h : Ran (t.compile run method f) s sql s') :
    s' = s ∧ ∀ lit, ∃ u, (s.inlined lit notes).compiled [] t method (f' lit) = .ok u ∧
      Fills lit sql vs u := by
  have hmirrors := fun lit => Store.compiled_mirrors hg hs ht method (hf lit) [] []
  obtain ⟨hok, rfl⟩ := (ran_compile hs (hmirrors default).asksNothing).1 h
  exact ⟨rfl, fun lit => (hmirrors lit).succeeds sql hok⟩

/-- A noted query is compiled without questions. -/
theorem Store.Noted.selectSql_asksNothing (hg : g.Compiles p) (hs : s.Noted g notes)
    (ht : s.Stands notes t) (hwhole : (notes t).whole = true) : AsksNothing (s.selectSql t) :=
  (Store.compiled_mirrors hg hs ht "compile_select" 
    (fun _ _ (ha : MirrorsAttached default s notes _ _) _ =>
      selectSql_mirrors hg ha (hs.queries t ht) hwhole) [] []).asksNothing

/-- The text of a noted query fits the values that it is bound to. -/
theorem QueryId.toSql_aligned (hg : g.Compiles p) (hs : s.Noted g notes)
    (ht : s.Stands notes t) (hwhole : (notes t).whole = true) {sql : String}
    (h : Ran (t.toSql run) s sql s') :
    s' = s ∧ ∀ lit, ∃ u, (s.inlined lit notes).selectSql t = .ok u ∧
      Fills lit sql (s.query t).bindings.flatten u :=
  compile_aligned hg hs ht
    (fun _ _ _ ha _ => selectSql_mirrors hg ha (hs.queries t ht) hwhole) h

/-- A compiled sub-query fits its values, which are data. -/
theorem QueryId.asSub_aligned (hg : g.Compiles p) (hs : s.Noted g notes)
    (ht : s.Stands notes t) (hwhole : (notes t).whole = true) {sub : SubQuery}
    (h : Ran (t.asSub run) s sub s') :
    s' = s ∧ Reads sub.sql.toList sub.bindings.length ∧ ∀ v ∈ sub.bindings, v.handles = [] := by
  unfold QueryId.asSub QueryId.bindings at h
  simp only [ran_bind, ran_read, ran_pure] at h
  obtain ⟨sql, s1, hcompile, _, s2, ⟨_, s3, ⟨rfl, rfl⟩, rfl, rfl⟩, rfl, rfl⟩ := h
  obtain ⟨rfl, hfills⟩ := QueryId.toSql_aligned hg hs ht hwhole hcompile
  obtain ⟨u, _, hsub⟩ := hfills default
  exact ⟨rfl, hsub.reads, (hs.queries t ht).data⟩

end

end FluentSql
