import ConfigBind.Proofs.Bind.Scripts

/-!
# What a script has bound

`Script.Performs` is the run of a script with the parts that were bound on the way, each an
`Exchange`: what was asked for, what it came to, and the sessions around it.

`Script.Keeps Q P G post` is a contract of a script: it notes events of `Q` only and asks for
requests of `P` only, and comes to what `post` allows, as long as its requests are answered as `G`
allows.

* `Script.exec_iff_performs`: a script has a result if and only if it performs.
* `Script.Keeps.performs`, `Script.Keeps.exec`: what a contract says about a run.
-/

namespace ConfigBind

/-- A part that was bound: what was asked for, what it came to, and the sessions around it. -/
structure Exchange where
  request : Request
  before : Session
  outcome : Outcome Value
  after : Session

namespace Script

variable {α β : Type} {f : Request → Bind (Outcome Value)} {s t : Session} {calls : List Exchange}

/-- A run of the script from one session to another comes to `a`, and has the parts of the list
bound by `f`, in this order. -/
inductive Performs (f : Request → Bind (Outcome Value)) :
    Script α → Session → List Exchange → α → Session → Prop
  | done {a : α} {s : Session} : Performs f (done a) s [] a s
  | event {e : Event} {next : Script α} {s t : Session} {calls : List Exchange} {a : α}
      (h : Performs f next (s.note e) calls a t) : Performs f (event e next) s calls a t
  | call {r : Request} {next : Outcome Value → Script α} {s u t : Session} {o : Outcome Value}
      {calls : List Exchange} {a : α} (hr : f r s = some (o, u))
      (h : Performs f (next o) u calls a t) : Performs f (call r next) s (⟨r, s, o, u⟩ :: calls) a t

namespace Performs

theorem exec {c : Script α} {a : α} (h : c.Performs f s calls a t) :
    c.exec f s = some (a, t) := by
  induction h with
  | done => rfl
  | event _ ih => exact ih
  | call hr _ ih =>
    rw [exec_call, hr]
    exact ih

theorem bound {c : Script α} {a : α} (h : c.Performs f s calls a t) {x : Exchange}
    (hx : x ∈ calls) : f x.request x.before = some (x.outcome, x.after) := by
  induction h with
  | done => cases hx
  | event _ ih => exact ih hx
  | call hr _ ih =>
    rcases List.mem_cons.1 hx with rfl | hx
    · exact hr
    · exact ih hx

theorem before_of {I : Session → Prop} (hnote : ∀ s e, I s → I (s.note e))
    (hf : ∀ r s o t, f r s = some (o, t) → I s → I t) {c : Script α} {a : α}
    (h : c.Performs f s calls a t) (hs : I s) : ∀ x ∈ calls, I x.before := by
  induction h with
  | done => simp
  | event _ ih => exact ih (hnote _ _ hs)
  | call hr _ ih => exact List.forall_mem_cons.2 ⟨hs, ih (hf _ _ _ _ hr hs)⟩

end Performs

theorem exec_iff_performs {c : Script α} {a : α} :
    c.exec f s = some (a, t) ↔ ∃ calls, c.Performs f s calls a t := by
  constructor
  · intro h
    induction c generalizing s with
    | done b =>
      obtain ⟨rfl, rfl⟩ := Prod.mk.inj (Option.some.inj h)
      exact ⟨[], .done⟩
    | event e next ih =>
      obtain ⟨calls, hcalls⟩ := ih h
      exact ⟨calls, .event hcalls⟩
    | call r next ih =>
      obtain ⟨o, u, hr, hnext⟩ := exec_call_eq_some h
      obtain ⟨calls, hcalls⟩ := ih o hnext
      exact ⟨_, .call hr hcalls⟩
  · rintro ⟨calls, h⟩
    exact h.exec

theorem performs_bind {c : Script α} {k : α → Script β} {x : β}
    (h : (c >>= k).Performs f s calls x t) :
    ∃ first rest a u, calls = first ++ rest ∧ c.Performs f s first a u ∧
      (k a).Performs f u rest x t := by
  induction c generalizing s calls with
  | done a => exact ⟨[], calls, a, s, rfl, .done, h⟩
  | event e next ih =>
    cases h with
    | event h =>
      obtain ⟨first, rest, a, u, rfl, hfirst, hrest⟩ := ih h
      exact ⟨first, rest, a, u, rfl, .event hfirst, hrest⟩
  | call r next ih =>
    cases h with
    | call hr h =>
      obtain ⟨first, rest, a, u, rfl, hfirst, hrest⟩ := ih _ h
      exact ⟨_ :: first, rest, a, u, rfl, .call hr hfirst, hrest⟩

/-! ## Contracts -/

variable {Q : Event → Prop} {P : Request → Prop} {G : Request → Outcome Value → Prop}
  {post : α → Prop} {post' : β → Prop}

/-- The script notes events of `Q` only, asks for requests of `P` only, and comes to what `post`
allows, if its requests are answered as `G` allows. -/
def Keeps (Q : Event → Prop) (P : Request → Prop) (G : Request → Outcome Value → Prop)
    (post : α → Prop) : Script α → Prop
  | done a => post a
  | event e next => Q e ∧ next.Keeps Q P G post
  | call r next => P r ∧ ∀ o, G r o → (next o).Keeps Q P G post

theorem Keeps.bind {c : Script α} {k : α → Script β} (hc : c.Keeps Q P G post)
    (hk : ∀ a, post a → (k a).Keeps Q P G post') : (c >>= k).Keeps Q P G post' := by
  induction c with
  | done a => exact hk a hc
  | event e next ih => exact ⟨hc.1, ih hc.2⟩
  | call r next ih => exact ⟨hc.1, fun o ho => ih o (hc.2 o ho)⟩

/-- **A run keeps a contract** whose requests were answered as it expects. -/
theorem Keeps.performs {c : Script α} (hc : c.Keeps Q P G post) {a : α}
    (h : c.Performs f s calls a t) (hf : ∀ x ∈ calls, P x.request → G x.request x.outcome) :
    post a ∧ ∀ x ∈ calls, P x.request := by
  induction h with
  | done => exact ⟨hc, by simp⟩
  | event _ ih => exact ih hc.2 hf
  | call _ _ ih =>
    obtain ⟨hfirst, hrest⟩ := List.forall_mem_cons.1 hf
    obtain ⟨ha, hcalls⟩ := ih (hc.2 _ (hfirst hc.1)) hrest
    exact ⟨ha, List.forall_mem_cons.2 ⟨hc.1, hcalls⟩⟩

/-- **What the events of a contract and the binds preserve, a run preserves.** -/
theorem Keeps.exec {I : Session → Prop} (hnote : ∀ s e, Q e → I s → I (s.note e))
    (hf : ∀ r s o t, P r → f r s = some (o, t) → G r o ∧ (I s → I t)) {c : Script α}
    (hc : c.Keeps Q P G post) {a : α} (h : c.exec f s = some (a, t)) :
    post a ∧ (I s → I t) := by
  induction c generalizing s with
  | done b =>
    obtain ⟨rfl, rfl⟩ := Prod.mk.inj (Option.some.inj h)
    exact ⟨hc, id⟩
  | event e next ih =>
    obtain ⟨ha, ht⟩ := ih hc.2 h
    exact ⟨ha, fun hs => ht (hnote s e hc.1 hs)⟩
  | call r next ih =>
    obtain ⟨o, u, hr, hnext⟩ := exec_call_eq_some h
    obtain ⟨ho, hu⟩ := hf r s o u hc.1 hr
    obtain ⟨ha, ht⟩ := ih o (hc.2 o ho) hnext
    exact ⟨ha, fun hs => ht (hu hs)⟩

end Script

end ConfigBind
