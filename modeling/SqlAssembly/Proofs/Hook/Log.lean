import SqlAssembly.Hook.Log
import SqlAssembly.Proofs.Text.Fitting

namespace SqlAssembly

/-!
# Long texts that hooks and logs get

Hooks are told of an error with its text, and a logging hook shows the SQL text of a statement.
Either is cut when it is too long, by one rule: the longest part of whole characters within the
limit, and three points.

* `Outcome.exists_failure` — the text of an error that hooks are told of;
* `LogHook.shownSql_eq`, `LogHook.shownSql_within` — the SQL text that is shown;
* `LogHook.before_hook` — what a logging hook does before a statement runs;
* `longTexts_truncated` — the rule and the two places where it is followed.
-/

open Text (ShownWithin Truncated)

/-- The text of an error is shown within 512 bytes, and so never takes more than 515. -/
theorem Outcome.exists_failure (message : String) :
    ∃ text, failure message = .failed text ∧ ShownWithin 512 message text ∧
      text.utf8ByteSize ≤ 515 := by
  have hshown : ShownWithin 512 message (Text.ellipsized maxErrorBytes message) :=
    Text.shownWithin_ellipsized 512 message
  exact ⟨_, rfl, hshown, hshown.utf8ByteSize_le⟩

namespace LogHook

variable {h : LogHook}

/-- Without a limit, all of an SQL text is shown. -/
theorem shownSql_eq (hlimit : h.maxSqlBytes = none) (sql : String) : h.shownSql sql = sql := by
  rw [shownSql, hlimit]

/-- With a limit the text is shown within it. -/
theorem shownSql_within {limit : Nat} (hlimit : h.maxSqlBytes = some limit) (sql : String) :
    ShownWithin limit sql (h.shownSql sql) := by
  rw [shownSql, hlimit]
  exact Text.shownWithin_ellipsized limit sql

/-- A logging hook records its event and lets the statement pass. -/
theorem before_hook {σ : Type} [LogSink σ] (h : LogHook) (ctx : QueryContext) (st : σ) :
    (h.hook : Hook σ).before ctx st = (.proceed, LogSink.record (h.beforeEvent ctx) st) := rfl

/-- The event before an execution shows the text for the engine. -/
theorem lookup_beforeEvent (h : LogHook) (ctx : QueryContext) :
    (h.beforeEvent ctx).fields.lookup "sql" = some (h.shownSql ctx.execSql) := rfl

end LogHook

/-- A text that is cut keeps the longest part of whole characters within the limit.  The text of an
error is cut by this rule at 512 bytes, and the SQL text that a logging hook shows at its own limit,
or not at all if it has none. -/
theorem longTexts_truncated {σ : Type} [LogSink σ] :
    (∀ limit s, Truncated limit s (Text.kept limit s)) ∧
    (∀ message, ∃ text, Outcome.failure message = .failed text ∧ ShownWithin 512 message text ∧
      text.utf8ByteSize ≤ 515) ∧
    ∀ (h : LogHook) (ctx : QueryContext) (st : σ), ∃ event sql,
      (h.hook : Hook σ).before ctx st = (.proceed, LogSink.record event st) ∧
      event.fields.lookup "sql" = some sql ∧
      (h.maxSqlBytes = none → sql = ctx.execSql) ∧
      ∀ limit, h.maxSqlBytes = some limit → ShownWithin limit ctx.execSql sql := by
  refine ⟨Text.truncated_kept, Outcome.exists_failure, fun h ctx st => ?_⟩
  -- one event is logged, whose text is that for the engine, cut at the limit
  exact ⟨h.beforeEvent ctx, h.shownSql ctx.execSql, h.before_hook ctx st, h.lookup_beforeEvent ctx,
    fun hlimit => LogHook.shownSql_eq hlimit ctx.execSql,
    fun _ hlimit => LogHook.shownSql_within hlimit ctx.execSql⟩

/-- The limit is just before the last byte of a character of four, so three bytes are given up; and
a logging hook that leaves no room for a text shows the three points. -/
theorem longTexts_truncated_amid :
    Truncated 9 "aé€😀" "aé€" ∧
    ∃ event, (@LogHook.hook (List LogEvent) ⟨List.cons⟩ { maxSqlBytes := some 0 }).before
        (QueryContext.ofSql "é" 0) [] = (.proceed, [event]) ∧
      event.fields.lookup "sql" = some "..." := by
  obtain ⟨hkept, -, hlogged⟩ := @longTexts_truncated (List LogEvent) ⟨List.cons⟩
  constructor
  · exact hkept 9 "aé€😀"
  · obtain ⟨event, sql, hbefore, hsql, -, hwithin⟩ :=
      hlogged { maxSqlBytes := some 0 } (QueryContext.ofSql "é" 0) []
    refine ⟨event, hbefore, ?_⟩
    rcases hwithin 0 rfl with ⟨hfits, -⟩ | ⟨-, hshown⟩
    · exact absurd hfits (by decide)
    · rw [hsql, hshown]
      decide

end SqlAssembly
