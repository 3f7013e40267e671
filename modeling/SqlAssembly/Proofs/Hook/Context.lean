import SqlAssembly.Hook.Context

namespace SqlAssembly

/-!
# Contexts and verdicts

A verdict only changes the texts of a context, and the verb with them.  So there is a verdict from a
context to every other one that verdicts have made of it.

* `QueryContext.Consistent` — the verb is that of the canonical text;
* `QueryContext.Rewritten` — a context with other texts;
* `QueryContext.rewritten_of_follow` — what a verdict does to a context;
* `QueryContext.follow_between` — the verdict between two contexts leads from one to the other.
-/

namespace QueryContext

variable {ctx next last : QueryContext}

/-- The verb is that of the canonical text. -/
def Consistent (ctx : QueryContext) : Prop := ctx.verb = Verb.ofSql ctx.canonicalSql

/-- Only the texts are other ones, and the verb is that of the new canonical text. -/
def Rewritten (ctx next : QueryContext) : Prop :=
  ∃ exec canonical, next = { ctx with
    execSql := exec, canonicalSql := canonical, verb := Verb.ofSql canonical }

/-- A consistent context is a rewriting of itself. -/
theorem Consistent.rewritten (h : ctx.Consistent) : ctx.Rewritten ctx :=
  ⟨ctx.execSql, ctx.canonicalSql, by rw [← show _ = _ from h]⟩

/-- A rewritten context is consistent. -/
theorem Rewritten.consistent (h : ctx.Rewritten next) : next.Consistent := by
  obtain ⟨exec, canonical, rfl⟩ := h
  rfl

/-- Rewriting twice is rewriting: the later texts stay. -/
theorem Rewritten.trans (h : ctx.Rewritten next) (h' : next.Rewritten last) :
    ctx.Rewritten last := by
  obtain ⟨exec, canonical, rfl⟩ := h
  obtain ⟨exec', canonical', rfl⟩ := h'
  exact ⟨exec', canonical', rfl⟩

/-- Following a verdict rewrites a context. -/
theorem rewritten_of_follow {v : Verdict} (hctx : ctx.Consistent) (h : ctx.follow v = .ok next) :
    ctx.Rewritten next := by
  cases v with
  | proceed =>
    obtain rfl := Except.ok.inj h
    exact hctx.rewritten
  | substitute exec canonical =>
    obtain rfl := Except.ok.inj h
    exact ⟨exec, canonical.getD ctx.canonicalSql, rfl⟩
  | abort reason => cases h

/-- Only a veto stops a statement. -/
theorem eq_abort_of_follow {v : Verdict} {reason : String} (h : ctx.follow v = .error reason) :
    v = .abort reason := by
  cases v with
  | proceed | substitute exec canonical => cases h
  | abort r => rw [Except.error.inj h]

/-- The verdict between two contexts leads from the first to the second. -/
theorem follow_between (hctx : ctx.Consistent) (h : ctx.Rewritten last) :
    ctx.follow (Verdict.between ctx last) = .ok last := by
  obtain ⟨exec, canonical, rfl⟩ := h
  unfold Verdict.between
  split
  -- nothing was changed, so the verdict is to proceed
  · next hsame =>
    obtain ⟨rfl, rfl⟩ := hsame
    rw [← show _ = _ from hctx]
    rfl
  -- a canonical text is put in only where it is another one
  · show Except.ok (ctx.substitute exec _) = _
    split
    · next hcanonical =>
      obtain rfl : canonical = ctx.canonicalSql := hcanonical
      rfl
    · rfl

end QueryContext

end SqlAssembly
