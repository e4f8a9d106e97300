import Mathlib.Data.List.Forall2
import Mathlib.Tactic.Use
import ServiceBindings.Draft.Basic

/-!
# Executing drafting steps

What a drafting step does to a draft: its outcome, and the draft that it leaves behind even when it
fails.  A sequence of steps stops at the first one that fails, and it succeeds exactly if each of
its steps does.
-/

namespace ServiceBindings

namespace Drafting

variable {α β : Type}

/-- The outcome of a step on a draft, and the draft that it leaves. -/
def exec (x : Drafting α) (draft : Draft) : Except CompileError α × Draft :=
  x.run.run draft

/-- A step that succeeds gives a value and leaves a draft. -/
theorem exec_eq_of_ok {x : Drafting α} {d : Draft} {a : α} (h : (exec x d).1 = .ok a) :
  exec x d = (.ok a, (exec x d).2)
  := by
  rw [← h]

/-! ### Single steps -/

@[simp] theorem exec_pathOf (id : ModuleId) (d : Draft) :
  exec (pathOf id) d = (.ok (d.modules.path id), d)
  := rfl

@[simp] theorem exec_request (declaration : DeclarationRef) (d : Draft) :
  exec (request declaration) d = (.ok (), { d with declarations := d.declarations.add declaration })
  := rfl

@[simp] theorem exec_addModule (parent : ModuleId) (name : String) (inline : Bool) (doc : String)
    (d : Draft) :
  exec (addModule parent name inline doc) d
    = (.ok ⟨d.modules.size⟩, { d with
        modules := (d.modules.addChild parent name .everywhere inline).2.setDoc ⟨d.modules.size⟩
          (some doc) })
  := rfl

@[simp] theorem exec_write (id : ModuleId) (lines : List String) (d : Draft) :
  exec (write id lines) d
    = (.ok (), { d with modules := d.modules.appendText id (Text.unlines lines) })
  := rfl

/-! ### Sequences of steps -/

/-- A step is followed by the rest if it succeeds. -/
theorem exec_bind (x : Drafting α) (f : α → Drafting β) (d : Draft) :
  exec (x >>= f) d
    = match exec x d with
      | (.ok a, e) => exec (f a) e
      | (.error error, e) => (.error error, e)
  := by
  change exec (ExceptT.bind x f) d = _
  unfold exec ExceptT.bind ExceptT.mk ExceptT.bindCont
  simp only [ExceptT.run, StateT.run_bind]
  rcases StateT.run x d with ⟨outcome, e⟩
  cases outcome <;> rfl

/-- A value computed from the result of a step leaves the draft as it is. -/
theorem exec_bind_pure (x : Drafting α) (f : α → β) (d : Draft) :
  (exec (x >>= fun a => pure (f a)) d).2 = (exec x d).2
  := by
  rw [exec_bind]
  rcases exec x d with ⟨outcome, e⟩
  cases outcome <;> rfl

/-- A step that reads the draft passes it on. -/
@[simp] theorem exec_get_bind (f : Draft → Drafting β) (d : Draft) :
  exec (get >>= f) d = exec (f d) d
  := rfl

/-- A step that succeeds is followed by the rest. -/
theorem exec_bind_of_ok {x : Drafting α} {d e : Draft} {a : α} (h : exec x d = (.ok a, e))
    (f : α → Drafting β) :
  exec (x >>= f) d = exec (f a) e
  := by
  rw [exec_bind, h]

/-- A sequence succeeds exactly if its first step does and the rest does after it. -/
theorem exec_bind_eq_ok {x : Drafting α} {f : α → Drafting β} {d d' : Draft} {b : β} :
  exec (x >>= f) d = (.ok b, d') ↔ ∃ a e, exec x d = (.ok a, e) ∧ exec (f a) e = (.ok b, d')
  := by
  rw [exec_bind]
  rcases exec x d with ⟨outcome, e⟩
  cases outcome with
  | ok a =>
      constructor
      · intro h
        use a, e
      · rintro ⟨a', e', h, hf⟩
        cases h
        apply hf
  | error error => simp

/-- A sequence leads where its first step leads, or from there to where the rest leads. -/
theorem exec_bind_rel {R : Draft → Draft → Prop} (htrans : ∀ {a b c}, R a b → R b c → R a c)
    {x : Drafting α} {f : α → Drafting β} {d : Draft} (hx : R d (exec x d).2)
    (hf : ∀ a e, exec x d = (.ok a, e) → R e (exec (f a) e).2) :
  R d (exec (x >>= f) d).2
  := by
  rw [exec_bind]
  rcases hexec : exec x d with ⟨outcome, e⟩
  rw [hexec] at hx
  cases outcome with
  | ok a => apply htrans hx (hf a e hexec)
  | error error => apply hx

/-- The results of successful steps over a list are those of the single steps. -/
theorem forall₂_of_mapM {f : α → Drafting β} {items : List α}
    {results : List β} {d e : Draft} (h : exec (items.mapM f) d = (.ok results, e)) :
  List.Forall₂ (fun item result => ∃ d e, exec (f item) d = (.ok result, e)) items results
  := by
  induction items generalizing results d with
  | nil =>
      rw [List.mapM_nil] at h
      cases h
      apply List.Forall₂.nil
  | cons item items ih =>
      rw [List.mapM_cons] at h
      obtain ⟨result, d', hitem, h⟩ := exec_bind_eq_ok.mp h
      obtain ⟨rest, e', hrest, h⟩ := exec_bind_eq_ok.mp h
      cases h
      apply List.Forall₂.cons ⟨d, d', hitem⟩ (ih hrest)

end Drafting

end ServiceBindings
