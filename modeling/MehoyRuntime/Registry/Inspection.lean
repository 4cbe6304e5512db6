import MehoyRuntime.Registry.Reregistration

/-!
# Which files the rows were made of

A registration opens the file at its canonical path and parses what it has opened. The row that
comes of it is of that version, at that path.
-/

namespace MehoyRuntime.Registry
open TransitionSystem Filesystem

/-- What a step opens for a registration. -/
def Store.opens (store : Store) : AuditAction → List (PathBuf × Version)
  | .registry (.call call (.done none)) =>
    match store.calls call with
    | .opening canonical =>
      (store.files canonical).toList.map fun version => (canonical, version)
    | _ => []
  | _ => []

/-- A registration that holds a file has opened it. -/
def Call.Inspects (opened : List (PathBuf × Version)) : Call → Prop
  | .parsing canonical version | .observing canonical version _
  | .identifying canonical version _ _ => (canonical, version) ∈ opened
  | .inserting artifact version => (artifact.path, version) ∈ opened
  | _ => True

structure Store.Inspected (store : Store) (opened : List (PathBuf × Version)) : Prop where
  rows : ∀ record ∈ store.records, ∃ canonical : PathBuf,
    record.artifact.path = canonical.stored ∧ (canonical, record.parsed) ∈ opened
  calls : ∀ call, (store.calls call).Inspects opened

variable {sha256 : List UInt8 → List UInt8} {store store' : Store} {audit audit' : Audit}
  {call : ℕ} {point point' : Call} {answer : Answer} {opened more : List (PathBuf × Version)}

theorem Call.Inspects.mono (h : point.Inspects opened) (hmore : opened ⊆ more) :
    point.Inspects more := by
  cases point with
  | parsing | observing | identifying | inserting => exact hmore h
  | _ => trivial

theorem inspects_other (h : point.target = none) : point.Inspects opened := by
  cases point with
  | parsing | observing | identifying | inserting => cases h
  | _ => trivial

theorem Moves.inspects (hmoves : Moves store (store.calls call) answer point')
    (h : (store.calls call).Inspects opened) :
    point'.Inspects (store.opens (.registry (.call call answer)) ++ opened) := by
  generalize hpoint : store.calls call = point at hmoves h
  cases hmoves with
  | parsing canonical version hfile =>
    have hopens : (canonical, version) ∈ store.opens (.registry (.call call (.done none))) := by
      simp [Store.opens, hpoint, hfile]
    exact List.mem_append_left _ hopens
  | observing | identifying | inserting => exact List.mem_append_right _ h
  | other _ _ _ hnone => exact inspects_other hnone
  | inspecting | canonicalizing | finding | found | opening => trivial

theorem Store.Inspected.mono (h : store.Inspected opened) (hmore : opened ⊆ more) :
    store.Inspected more where
  rows := by
    intro record hrecord
    obtain ⟨canonical, hpath, hopened⟩ := h.rows record hrecord
    exact ⟨canonical, hpath, hmore hopened⟩
  calls call := (h.calls call).mono hmore

theorem Store.Inspected.set (h : store.Inspected opened) (hpoint : point.Inspects opened) :
    (store.set call point).Inspected opened where
  rows := h.rows
  calls other := by
    rw [calls_set]
    split
    · exact hpoint
    · exact h.calls other

theorem Store.Inspected.insert {artifact : ModelArtifact} {version : Version} {grown : Store}
    (h : store.Inspected opened) (hpoint : store.calls call = .inserting artifact version)
    (hinsert : store.insert artifact version = .ok grown) : grown.Inspected opened := by
  obtain ⟨-, -, rfl⟩ := insert_ok hinsert
  have hcall := h.calls call
  rw [hpoint] at hcall
  constructor
  case rows =>
    intro record hrecord
    rcases List.mem_cons.mp hrecord with rfl | hrecord
    · exact ⟨artifact.path, rfl, hcall⟩
    · exact h.rows record hrecord
  case calls => exact h.calls

theorem Store.Inspected.update (h : store.Inspected opened) (id : String) (digest : List UInt8) :
    (store.update id digest).Inspected opened where
  rows record' hrecord' := by
    obtain ⟨record, hrecord, -, -, -, heq⟩ := Audit.update_mem hrecord'
    obtain ⟨canonical, hpath, hopened⟩ := h.rows record hrecord
    rw [heq]
    split <;> exact ⟨canonical, hpath, hopened⟩
  calls := h.calls

theorem Store.Inspected.step {action : AuditAction} (h : audit.store.Inspected opened)
    (hstep : audit.step sha256 action = some audit') :
    audit'.store.Inspected (audit.store.opens action ++ opened) := by
  have hmore : opened ⊆ audit.store.opens action ++ opened := List.subset_append_right _ _
  have heffect := Audit.step_effect hstep
  generalize audit'.store = store' at heffect ⊢
  generalize Chronicle.empty.note audit action = chronicle at heffect
  cases heffect with
  | moved call answer point hmoves => exact (h.mono hmore).set (hmoves.inspects (h.calls call))
  | refused call failure err => exact (h.mono hmore).set trivial
  | inserted call artifact version grown hpoint hinsert =>
    exact ((h.mono hmore).insert hpoint hinsert).set trivial
  | forgotten id =>
    exact ⟨fun record hrecord => (h.mono hmore).rows record (List.mem_filter.mp hrecord).1,
      (h.mono hmore).calls⟩
  | touched => exact ⟨(h.mono hmore).rows, (h.mono hmore).calls⟩
  | updated _ id digest => exact (h.mono hmore).update id digest
  | kept => exact h.mono hmore

theorem inspected_init (h : (Audit.system sha256).init audit) : audit.store.Inspected [] := by
  obtain ⟨⟨hrecords, hcalls, -⟩, -⟩ := h
  constructor
  case rows =>
    intro record hrecord
    rw [hrecords] at hrecord
    cases hrecord
  case calls =>
    intro call
    rw [hcalls]
    trivial

end MehoyRuntime.Registry
