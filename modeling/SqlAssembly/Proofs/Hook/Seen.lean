import SqlAssembly.Proofs.Hook.Traced

namespace SqlAssembly

/-!
# What hooks see

A context is changed in two places: a composite keeps a copy of its own and changes it as its hooks
answer, and whoever asked the composite changes another one by its verdict.  The journal tells what
both come to.  Whatever the hooks answered so far, the next one sees the context of the statement
with the text that was put in last for the engine and the one that was put in last as canonical.

* `Traced.lastRewrite`, `Traced.lastOverride` — the texts that hooks put in last, by the journal;
* `QueryContext.after` — a context with these texts;
* `Traced.Event.Shows`, `Traced.Shown` — an entry is about a context, and every entry about the one
  that the entries in front of it lead to;
* `Asked.shown` — so it is with hooks that are asked one after another;
* `Hook.watched` — a hook in which every composite also writes down what it is asked and told.
-/

namespace Traced

/-! ### The texts that were put in last -/

/-- The text for the engine that a hook put in. -/
def Event.rewrite? : Event → Option String
  | .asked _ _ (.substitute exec _) => some exec
  | _ => none

/-- The canonical text that a hook put in. -/
def Event.override? : Event → Option String
  | .asked _ _ (.substitute _ canonical) => canonical
  | _ => none

/-- The text for the engine that was put in last. -/
def lastRewrite (events : List Event) : Option String := (events.filterMap Event.rewrite?).getLast?

/-- The canonical text that was put in last. -/
def lastOverride (events : List Event) : Option String :=
  (events.filterMap Event.override?).getLast?

/-- A text that was put in later counts, if there is any. -/
theorem lastRewrite_append (events events' : List Event) :
    lastRewrite (events ++ events') = (lastRewrite events').or (lastRewrite events) := by
  rw [lastRewrite, List.filterMap_append, List.getLast?_append]
  rfl

/-- The same for canonical texts. -/
theorem lastOverride_append (events events' : List Event) :
    lastOverride (events ++ events') = (lastOverride events').or (lastOverride events) := by
  rw [lastOverride, List.filterMap_append, List.getLast?_append]
  rfl

end Traced

open Traced (Event lastRewrite lastOverride lastRewrite_append lastOverride_append)

/-! ### The context that is due -/

namespace QueryContext

variable {ctx next : QueryContext} {events : List Event}

/-- The context with the texts that were put in last, and the verb of the canonical one. -/
def after (ctx : QueryContext) (events : List Event) : QueryContext :=
  let canonicalSql := (lastOverride events).getD ctx.canonicalSql
  { ctx with
    execSql := (lastRewrite events).getD ctx.execSql, canonicalSql,
    verb := Verb.ofSql canonicalSql }

/-- The verb follows the canonical text, whatever was put in. -/
theorem consistent_after (ctx : QueryContext) (events : List Event) :
    (ctx.after events).Consistent := rfl

/-- What comes later is put into the context that was there. -/
theorem after_append (ctx : QueryContext) (events events' : List Event) :
    ctx.after (events ++ events') = (ctx.after events).after events' := by
  simp only [after, lastRewrite_append, lastOverride_append, Option.getD_or]

/-- Where no hook put in a text, nothing changes. -/
theorem Consistent.after_eq (hctx : ctx.Consistent)
    (h : ∀ event ∈ events, event.rewrite? = none ∧ event.override? = none) :
    ctx.after events = ctx := by
  -- no entry puts in a text for the engine, and none a canonical one
  have hrewrite : lastRewrite events = none := by
    rw [lastRewrite, List.filterMap_eq_nil_iff.mpr fun event hevent => (h event hevent).1]
    rfl
  have hoverride : lastOverride events = none := by
    rw [lastOverride, List.filterMap_eq_nil_iff.mpr fun event hevent => (h event hevent).2]
    rfl
  rw [after, hrewrite, hoverride]
  show { ctx with verb := Verb.ofSql ctx.canonicalSql } = ctx
  rw [← show ctx.verb = _ from hctx]

/-- A verdict leads to the context that its entry in the journal says. -/
theorem eq_after_of_follow (hctx : ctx.Consistent) {v : Verdict} (h : ctx.follow v = .ok next)
    (hook : Nat) (seen : QueryContext) : next = ctx.after [.asked hook seen v] := by
  cases v with
  | proceed =>
    obtain rfl := Except.ok.inj h
    exact (hctx.after_eq (List.forall_mem_singleton.mpr ⟨rfl, rfl⟩)).symm
  | substitute exec canonical =>
    obtain rfl := Except.ok.inj h
    cases canonical <;> rfl
  | abort reason => cases h

end QueryContext

/-! ### Entries and their contexts -/

namespace Traced

variable {c : Call} {params : Params} {ctx : QueryContext} {event : Event}
  {events events' : List Event}

/-- What stands in the entry is what the context says: a hook saw this context, or the engine was
given its text to prepare, or executed it with the parameters of the call. -/
def Event.Shows (c : Call) (params : Params) (ctx : QueryContext) : Event → Prop
  | .asked _ seen _ => seen = ctx
  | .told _ seen _ => seen = ctx
  | .prepared sql _ => sql = ctx.execSql
  | .executed sql c' params' _ => sql = ctx.execSql ∧ c' = c ∧ params' = params

/-- Every entry is about the context that the entries in front of it lead to. -/
def Shown (c : Call) (params : Params) (ctx : QueryContext) (events : List Event) : Prop :=
  ∀ before event behind, events = before ++ event :: behind →
    event.Shows c params (ctx.after before)

/-- Entries that are due may stand behind others, seen from the context that those lead to. -/
theorem Shown.append (h : Shown c params ctx events)
    (h' : Shown c params (ctx.after events) events') : Shown c params ctx (events ++ events') := by
  intro before event behind heq
  rcases List.append_eq_append_iff.mp heq with ⟨front, rfl, hfront⟩ | ⟨front, rfl, hfront⟩
  · -- the entry is among the later ones
    rw [QueryContext.after_append]
    exact h' front event behind hfront
  · cases front with
    | nil =>
      -- the entry is the first of the later ones
      have hfirst := h' [] event behind hfront.symm
      rwa [← QueryContext.after_append, List.append_nil, List.append_nil] at hfirst
    | cons e front =>
      obtain ⟨rfl, -⟩ := List.cons.inj hfront
      exact h before event front rfl

/-- Where no hook put in a text, every entry is about the same context. -/
theorem shown_of_forall (hctx : ctx.Consistent)
    (h : ∀ event ∈ events, (event.rewrite? = none ∧ event.override? = none) ∧
      event.Shows c params ctx) : Shown c params ctx events := by
  rintro before event behind rfl
  rw [hctx.after_eq fun event hevent => (h event (List.mem_append_left _ hevent)).1]
  exact (h event (by simp)).2

/-- The first hook that is asked sees the context itself. -/
theorem shown_asked (hctx : ctx.Consistent) (hook : Nat) (v : Verdict) :
    Shown c params ctx [.asked hook ctx v] := by
  intro before event behind heq
  cases before with
  | nil =>
    obtain ⟨rfl, -⟩ := List.cons.inj heq
    exact (hctx.after_eq (List.forall_mem_nil _)).symm
  | cons e before => simp at heq

end Traced

open Traced (Shown shown_of_forall shown_asked)

/-- Hooks that are asked one after another see the contexts that the answers lead to, and so does
whoever asked them. -/
theorem Asked.shown {last n : Nat} {ctx : QueryContext} {events : List Event}
    {answer : Except String QueryContext} (h : Asked last n ctx events answer)
    (hctx : ctx.Consistent) (c : Call) (params : Params) :
    Shown c params ctx events ∧ ∀ final, answer = .ok final → final = ctx.after events := by
  induction h with
  | done =>
    refine ⟨shown_of_forall hctx (List.forall_mem_nil _), fun final hfinal => ?_⟩
    rw [← Except.ok.inj hfinal, hctx.after_eq (List.forall_mem_nil _)]
  | @passed n ctx next v events answer hn hv hrest ih =>
    -- what the answer leads to is consistent, so the rest goes on from there
    have hnext : next = ctx.after [.asked n ctx v] := QueryContext.eq_after_of_follow hctx hv n ctx
    obtain ⟨hshown, hfinal⟩ := ih (hnext ▸ ctx.consistent_after _)
    rw [hnext] at hshown hfinal
    refine ⟨(shown_asked hctx n v).append hshown, fun final h => ?_⟩
    rw [hfinal final h, ← QueryContext.after_append, List.singleton_append]
  | refused hn => exact ⟨shown_asked hctx _ _, nofun⟩

/-- While hooks are asked, none of them is told anything. -/
theorem Asked.told_not_mem {last n : Nat} {ctx : QueryContext} {events : List Event}
    {answer : Except String QueryContext} (h : Asked last n ctx events answer) (hook : Nat)
    (seen : QueryContext) (outcome : Outcome) : .told hook seen outcome ∉ events := by
  induction h with
  | done => exact List.not_mem_nil
  | passed _ _ _ ih => simpa using ih
  | refused => simp

/-! ### Composites that are watched -/

namespace Hook

variable {σ : Type}

mutual

/-- The hook with one more hook at the front of each composite.  It lets everything pass, and it is
asked and told exactly what the composite is. -/
def watched : Hook σ → Hook σ
  | .single ask tell => .single ask tell
  | .composite hooks => .composite (.plain :: watchedAll hooks)

/-- The hooks with one more hook at the front of each composite. -/
def watchedAll : List (Hook σ) → List (Hook σ)
  | [] => []
  | h :: rest => h.watched :: watchedAll rest

end

mutual

/-- A watched hook answers as before: the hook at the front of a composite lets everything pass. -/
theorem before_watched : ∀ h : Hook σ, h.watched.before = h.before
  | .single _ _ => rfl
  | .composite hooks => by
    funext ctx
    rw [watched, before, before]
    have hchain : chain (.plain :: watchedAll hooks) ctx = chain (watchedAll hooks) ctx := rfl
    rw [hchain, chain_watchedAll]

/-- The same for a chain of hooks. -/
theorem chain_watchedAll : ∀ hooks : List (Hook σ), chain (watchedAll hooks) = chain hooks
  | [] => rfl
  | h :: rest => by
    funext ctx
    rw [watchedAll, chain, chain, before_watched h, chain_watchedAll rest]

end

mutual

/-- A watched hook does the same when it is told something. -/
theorem after_watched : ∀ h : Hook σ, h.watched.after = h.after
  | .single _ _ => rfl
  | .composite hooks => by
    funext ctx outcome
    rw [watched, after, after]
    have htell : tellAll (.plain :: watchedAll hooks) ctx outcome
        = tellAll (watchedAll hooks) ctx outcome := rfl
    rw [htell, tellAll_watchedAll]

/-- The same for hooks that are told one after another. -/
theorem tellAll_watchedAll : ∀ hooks : List (Hook σ), tellAll (watchedAll hooks) = tellAll hooks
  | [] => rfl
  | h :: rest => by
    funext ctx outcome
    rw [watchedAll, tellAll, tellAll, after_watched h, tellAll_watchedAll rest]

end

end Hook

end SqlAssembly
