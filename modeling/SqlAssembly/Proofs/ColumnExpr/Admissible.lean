import SqlAssembly.Proofs.ColumnExpr.CallShape
import SqlAssembly.Proofs.Identifier.QualifiedName

namespace SqlAssembly

/-!
# Expressions that were read

What is known of an expression that was read, and what reading does to the aliases of calls: such an
alias is unquoted, so if the name that it stands for is a quoted name itself, reading it again
takes one more pair of quotes away.

* `ColumnExpr.Admissible`, `admissible_of_parse` — the expressions that are ever read;
* `ColumnExpr.callAliases`, `ColumnExpr.reread` — the aliases of calls, and the expression with
  each of them unquoted once more;
* `ColumnExpr.names` — all names of an expression, none of which is refused.
-/

/-! ### Expressions that were read -/

/-- The name of a function as it is read: in capitals, and not refused. -/
structure Identifier.AdmissibleFunction (name : List Char) : Prop where
  isFunctionName : Grammar.IsFunctionName name
  capitals : name.map Text.upper = name
  not_denied : Denial.of? name = none

mutual

/-- An expression as it is read: no name is empty or refused. -/
def ColumnExpr.Admissible : ColumnExpr → Prop
  | .star => True
  | .column name => name.Admissible 3
  | .call function arguments alias? =>
    Identifier.AdmissibleFunction function.toList ∧ Argument.AllAdmissible arguments ∧
      ∀ name ∈ alias?, Identifier.Admissible name.toList

/-- An argument as it is read. -/
def Argument.Admissible : Argument → Prop
  | .literal text => Argument.isLiteral text.toList = true
  | .expr e => e.Admissible

/-- Arguments as they are read. -/
def Argument.AllAdmissible : List Argument → Prop
  | [] => True
  | a :: rest => a.Admissible ∧ Argument.AllAdmissible rest

end

/-- The name of a function has no quotes, so it passes the check unless it is refused. -/
theorem Identifier.check_functionName {name : List Char} (h : Grammar.IsFunctionName name)
    (hdenied : Denial.of? name = none) : check name = .ok () := by
  obtain ⟨c, cs, rfl, hc, -⟩ := h
  -- no name of a function begins with a quote, so it is checked as it stands
  have hquote : c ≠ '"' := by
    rintro rfl
    exact absurd hc (by decide)
  exact check_of_quotedName? (quotedName?_cons hquote cs) hdenied

/-- The name of a call that is read is admissible in capitals: no refusal depends on the case of
letters. -/
theorem Identifier.admissibleFunction_of_read {s : List Char} {call : CallShape}
    (hread : CallShape.read s = some call) (hcheck : check call.function = .ok ()) :
    AdmissibleFunction (call.function.map Text.upper) := by
  obtain ⟨hne, hname⟩ := Grammar.forall_of_isFunctionName (CallShape.isFunctionName_of_read hread)
  refine ⟨Grammar.isFunctionName_of_read hread, Grammar.map_upper_upper hname, ?_⟩
  -- the check was of the name as it was written
  rw [Denial.of?_upper hne hname]
  exact (check_eq_ok.mp hcheck).1

/-- The alias of a call is the name that its segment stands for, which passes the check. -/
theorem admissible_of_callAlias {segment? : Option Segment} {alias? : Option String}
    (hsegment : ∀ segment ∈ segment?, segment.WellFormed) (h : callAlias segment? = .ok alias?) :
    ∀ name ∈ alias?, Identifier.Admissible name.toList := by
  intro name hname
  obtain rfl : alias? = some name := hname
  cases segment? with
  | none => cases h
  | some segment =>
    obtain ⟨name', hok, hsome⟩ := bind_eq_ok.mp h
    cases hsome
    obtain ⟨⟨⟩, hcheck, hdecode⟩ := bind_eq_ok.mp hok
    obtain rfl := Except.ok.inj hdecode
    rw [String.toList_ofList]
    exact ⟨Identifier.decode_ne_nil (hsegment segment rfl).name_ne_nil,
      (Identifier.check_eq_ok.mp hcheck).2⟩

/-- Whatever is read is admissible. -/
theorem admissible_of_parse :
    (∀ s e, ColumnExpr.parse s = .ok e → e.Admissible) ∧
    (∀ ps arguments, Argument.parseAll ps = .ok arguments → Argument.AllAdmissible arguments) := by
  -- along the recursion of the two readers, one case for each way that they take
  refine ColumnExpr.parse.mutual_induct
    (fun s => ∀ e, ColumnExpr.parse s = .ok e → e.Admissible)
    (fun ps => ∀ arguments, Argument.parseAll ps = .ok arguments →
      Argument.AllAdmissible arguments)
    ?star ?column ?call ?nil ?literal ?nested
  case star =>
    intro s hs e h
    rw [ColumnExpr.parse_star hs] at h
    obtain rfl := Except.ok.inj h
    exact trivial
  case column =>
    intro s hs hread e h
    rw [ColumnExpr.parse_column hs hread] at h
    obtain ⟨q, hq, rfl⟩ := map_eq_ok.mp h
    exact QualifiedName.admissible_of_parse hq
  case call =>
    intro s hs call hread ih e h
    rw [ColumnExpr.parse_call hs hread] at h
    obtain ⟨⟨⟩, hcheck, h⟩ := bind_eq_ok.mp h
    obtain ⟨arguments, harguments, h⟩ := bind_eq_ok.mp h
    obtain ⟨alias?, halias, h⟩ := bind_eq_ok.mp h
    obtain rfl := Except.ok.inj h
    rw [ColumnExpr.Admissible, String.toList_ofList]
    -- the three parts of a call were checked by different functions
    exact ⟨Identifier.admissibleFunction_of_read hread hcheck, ih arguments harguments,
      admissible_of_callAlias (CallShape.wellFormed_of_read hread) halias⟩
  case nil =>
    intro arguments h
    rw [Argument.parseAll.eq_def] at h
    obtain rfl := Except.ok.inj h
    exact trivial
  case literal =>
    intro p rest hp ih arguments h
    rw [Argument.parseAll_cons, if_pos hp] at h
    obtain ⟨argument, hargument, h⟩ := bind_eq_ok.mp h
    obtain ⟨others, hothers, h⟩ := bind_eq_ok.mp h
    obtain rfl := Except.ok.inj hargument
    obtain rfl := Except.ok.inj h
    refine ⟨?_, ih others hothers⟩
    rwa [Argument.Admissible, String.toList_ofList]
  case nested =>
    intro p rest hp ihRest ihHead arguments h
    rw [Argument.parseAll_cons, if_neg hp] at h
    obtain ⟨argument, hargument, h⟩ := bind_eq_ok.mp h
    obtain ⟨others, hothers, h⟩ := bind_eq_ok.mp h
    obtain ⟨e, he, rfl⟩ := map_eq_ok.mp hargument
    obtain rfl := Except.ok.inj h
    exact ⟨ihHead e he, ihRest others hothers⟩

/-! ### The aliases of calls -/

/-- The name that a name stands for. -/
def Identifier.unquoted (name : String) : String := String.ofList (decode name.toList)

/-- A name that is no quoted name stands for itself. -/
theorem Identifier.unquoted_of_quotedName? {name : String}
    (h : quotedName? name.toList = none) : unquoted name = name := by
  rw [unquoted, decode_of_quotedName? h, String.ofList_toList]

mutual

/-- The aliases of the calls in an expression, those of the arguments first. -/
def ColumnExpr.callAliases : ColumnExpr → List String
  | .star | .column _ => []
  | .call _ arguments alias? => Argument.allCallAliases arguments ++ alias?.toList

/-- The aliases of the calls in an argument. -/
def Argument.callAliases : Argument → List String
  | .literal _ => []
  | .expr e => e.callAliases

/-- The aliases of the calls in arguments, from left to right. -/
def Argument.allCallAliases : List Argument → List String
  | [] => []
  | a :: rest => a.callAliases ++ Argument.allCallAliases rest

end

mutual

/-- The expression with the alias of every call unquoted once more. -/
def ColumnExpr.reread : ColumnExpr → ColumnExpr
  | .star => .star
  | .column name => .column name
  | .call function arguments alias? =>
    .call function (Argument.rereadAll arguments) (alias?.map Identifier.unquoted)

/-- The argument with the alias of every call unquoted once more. -/
def Argument.reread : Argument → Argument
  | .literal text => .literal text
  | .expr e => .expr e.reread

/-- The arguments with the alias of every call unquoted once more. -/
def Argument.rereadAll : List Argument → List Argument
  | [] => []
  | a :: rest => a.reread :: Argument.rereadAll rest

end

/-- Checks names from left to right. -/
def Identifier.checkAll (names : List String) : Except Error Unit :=
  names.forM fun name => check name.toList

/-- Names are checked in turn. -/
theorem Identifier.checkAll_append (names others : List String) :
    checkAll (names ++ others) = checkAll names >>= fun _ => checkAll others := by
  simp [checkAll]

/-- All names pass if each of them does. -/
theorem Identifier.checkAll_eq_ok {names : List String}
    (h : ∀ name ∈ names, check name.toList = .ok ()) : checkAll names = .ok () := by
  induction names with
  | nil => rfl
  | cons name names ih =>
    rw [List.forall_mem_cons] at h
    have hrest := ih h.2
    simp only [checkAll, List.forM_eq_forM, List.forM_cons] at hrest ⊢
    rw [h.1]
    exact hrest

/-- The alias of a call is unquoted if it passes the check. -/
theorem callAlias_eq (alias? : Option Segment) :
    callAlias alias? = (Identifier.checkAll (alias?.map Segment.meaning).toList).map
      fun _ => (alias?.map Segment.meaning).map Identifier.unquoted := by
  cases alias? with
  | none => rfl
  | some segment =>
    cases hcheck : Identifier.check segment.name with
    | error e => simp [callAlias, Identifier.checkAll, hcheck]; rfl
    | ok u =>
      simp [callAlias, Identifier.checkAll, Identifier.unquoted, hcheck]
      rfl

mutual

/-- If no alias of a call is a quoted name, an expression is the same when it is read again. -/
theorem ColumnExpr.reread_eq (e : ColumnExpr)
    (h : ∀ name ∈ e.callAliases, Identifier.quotedName? name.toList = none) : e.reread = e := by
  cases e with
  | star => rfl
  | column name => rfl
  | call function arguments alias? =>
    rw [ColumnExpr.callAliases, List.forall_mem_append] at h
    -- an alias that is no quoted name is the same when it is unquoted
    have halias : alias?.map Identifier.unquoted = alias? := by
      cases alias? with
      | none => rfl
      | some name =>
        rw [Option.map_some, Identifier.unquoted_of_quotedName? (h.2 name (by simp))]
    rw [ColumnExpr.reread, Argument.rereadAll_eq arguments h.1, halias]

/-- The same for arguments, along the other half of the recursion. -/
theorem Argument.rereadAll_eq (arguments : List Argument)
    (h : ∀ name ∈ Argument.allCallAliases arguments,
      Identifier.quotedName? name.toList = none) : Argument.rereadAll arguments = arguments := by
  cases arguments with
  | nil => rfl
  | cons a rest =>
    rw [Argument.allCallAliases, List.forall_mem_append] at h
    rw [Argument.rereadAll, Argument.rereadAll_eq rest h.2]
    cases a with
    | literal text => rfl
    | expr e => rw [Argument.reread, ColumnExpr.reread_eq e h.1]

end

/-! ### The names of an expression -/

mutual

/-- The names in an expression: its parts, functions and aliases. -/
def ColumnExpr.names : ColumnExpr → List String
  | .star => []
  | .column name => name.parts ++ name.alias?.toList
  | .call function arguments alias? => function :: (Argument.allNames arguments ++ alias?.toList)

/-- The names in an argument. -/
def Argument.names : Argument → List String
  | .literal _ => []
  | .expr e => e.names

/-- The names in arguments, from left to right. -/
def Argument.allNames : List Argument → List String
  | [] => []
  | a :: rest => a.names ++ Argument.allNames rest

end

/-- The names of an argument are among those of all. -/
theorem Argument.names_subset {a : Argument} {arguments : List Argument} (h : a ∈ arguments) :
    a.names ⊆ allNames arguments := by
  induction arguments with
  | nil => cases h
  | cons b rest ih =>
    rcases List.mem_cons.mp h with rfl | h
    · exact List.subset_append_left _ _
    · exact List.Subset.trans (ih h) (List.subset_append_right _ _)

mutual

/-- The aliases of calls are among the names of an expression. -/
theorem ColumnExpr.callAliases_subset (e : ColumnExpr) : e.callAliases ⊆ e.names := by
  cases e with
  | star => nofun
  | column name => nofun
  | call function arguments alias? =>
    intro name hname
    rcases List.mem_append.mp hname with hname | hname
    · exact List.mem_cons_of_mem _
        (List.mem_append_left _ (Argument.allCallAliases_subset arguments hname))
    · exact List.mem_cons_of_mem _ (List.mem_append_right _ hname)

/-- The same for arguments. -/
theorem Argument.allCallAliases_subset (arguments : List Argument) :
    Argument.allCallAliases arguments ⊆ Argument.allNames arguments := by
  cases arguments with
  | nil => nofun
  | cons a rest =>
    intro name hname
    rcases List.mem_append.mp hname with hname | hname
    · cases a with
      | literal text => cases hname
      | expr e => exact List.mem_append_left _ (ColumnExpr.callAliases_subset e hname)
    · exact List.mem_append_right _ (Argument.allCallAliases_subset rest hname)

end

mutual

/-- The names of an admissible expression are not refused. -/
theorem ColumnExpr.not_denied_of_mem_names (e : ColumnExpr) (h : e.Admissible) :
    ∀ name ∈ e.names, Denial.of? name.toList = none := by
  cases e with
  | star => nofun
  | column name =>
    rw [ColumnExpr.names, List.forall_mem_append]
    exact ⟨fun part hpart => (h.parts part hpart).not_denied,
      fun part hpart => (h.alias? part (by simpa using hpart)).not_denied⟩
  | call function arguments alias? =>
    obtain ⟨hfunction, harguments, halias⟩ := h
    rw [ColumnExpr.names, List.forall_mem_cons, List.forall_mem_append]
    exact ⟨hfunction.not_denied, Argument.not_denied_of_mem_allNames arguments harguments,
      fun name hname => (halias name (by simpa using hname)).not_denied⟩

/-- The same for arguments. -/
theorem Argument.not_denied_of_mem_allNames (arguments : List Argument)
    (h : Argument.AllAdmissible arguments) :
    ∀ name ∈ Argument.allNames arguments, Denial.of? name.toList = none := by
  cases arguments with
  | nil => nofun
  | cons a rest =>
    rw [Argument.allNames, List.forall_mem_append]
    refine ⟨?_, Argument.not_denied_of_mem_allNames rest h.2⟩
    cases a with
    | literal text => nofun
    | expr e => exact ColumnExpr.not_denied_of_mem_names e h.1

end

end SqlAssembly
