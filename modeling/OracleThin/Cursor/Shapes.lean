import OracleThin.Bind.Rows
import OracleThin.Cursor.Books

/-!
# Bind types of cached cursors

The cache records the bind types of the last execute of a cursor, where an untyped NULL inherits the type that was
recorded before. The history of a connection also keeps the bind rows with which each cursor was parsed. As long as
one SQL text is executed, the recorded types are those of the parse.
-/

namespace OracleThin.Cursor

open Lib OracleThin.Bind

/-! ### Shapes -/

abbrev BindRows := List (List BindValue)

/-- The type that a slot gives to its bind. -/
def BindShapeSlot.type (slot : BindShapeSlot) : UInt8 × UInt8 := (slot.family, slot.csfrm)

/-- There are as many columns as before, and each has the type it had before or only untyped NULLs. -/
def BoundAsParsed (parsed rows : BindRows) : Prop :=
  (bindTypeShape rows).length = (bindTypeShape parsed).length ∧
    ∀ index < (bindTypeShape rows).length, (∀ row ∈ rows, ∀ value ∈ row[index]?, value = .null) ∨
      (bindShapeSlot rows index).type = (bindShapeSlot parsed index).type

section

variable {parsed rows : BindRows} {old new : List BindShapeSlot} {index : Nat}

private theorem eq_null_of_untypedNull (h : (bindShapeSlot rows index).untypedNull = true) :
    ∀ row ∈ rows, ∀ value ∈ row[index]?, value = .null := by
  unfold bindShapeSlot at h
  split at h
  · cases h
  · rename_i hnone
    intro row hrow value hvalue
    have hinfo := List.findSome?_eq_none_iff.1 hnone row hrow
    rw [Option.mem_def.1 hvalue] at hinfo
    exact bindValueTypeInfo_eq_none_iff.1 hinfo

private theorem bindTypeShape_getElem (h : index < (bindTypeShape rows).length) :
    (bindTypeShape rows)[index] = bindShapeSlot rows index := by
  cases rows with
  | nil => cases h
  | cons row rows => simp [bindTypeShape]

private theorem bindShapeIsCompatible_iff : bindShapeIsCompatible old new = true ↔
    List.Forall₂ (fun old new => new.untypedNull = true ∨ old.type = new.type) old new := by
  induction old generalizing new with
  | nil => cases new <;> simp [bindShapeIsCompatible]
  | cons slot old ih =>
    cases new with
    | nil => simp [bindShapeIsCompatible]
    | cons slot' new =>
      rw [List.forall₂_cons, ← ih]
      simp [bindShapeIsCompatible, BindShapeSlot.type]
      tauto

/-- Binds that are compatible with the recorded types have the types of the parse. -/
theorem boundAsParsed_of_isCompatible
    (hparsed : old.map BindShapeSlot.type = (bindTypeShape parsed).map BindShapeSlot.type)
    (h : bindShapeIsCompatible old (bindTypeShape rows) = true) : BoundAsParsed parsed rows := by
  have hslots := bindShapeIsCompatible_iff.1 h
  have hlength : old.length = (bindTypeShape parsed).length := by simpa using congrArg List.length hparsed
  refine ⟨hslots.length_eq.symm.trans hlength, fun index hindex => ?_⟩
  have hold : index < old.length := hslots.length_eq.symm ▸ hindex
  have htype : old[index].type = (bindShapeSlot parsed index).type := by
    rw [← bindTypeShape_getElem (hlength ▸ hold)]
    simpa [hold, hlength ▸ hold] using congrArg (·[index]?) hparsed
  rcases (List.forall₂_iff_get.1 hslots).2 index hold hindex with hnull | hsame
  · exact Or.inl (eq_null_of_untypedNull (bindTypeShape_getElem hindex ▸ hnull))
  · exact Or.inr (by rw [← bindTypeShape_getElem hindex, ← htype]; exact hsame.symm)

/-- An untyped NULL does not change the recorded type. -/
theorem types_inherit (h : bindShapeIsCompatible old new = true) :
    (List.zipWith (fun slot oldSlot => if slot.untypedNull then oldSlot else slot) new old).map BindShapeSlot.type =
      old.map BindShapeSlot.type := by
  rw [bindShapeIsCompatible_iff] at h
  induction h with
  | nil => rfl
  | cons hslot _ ih =>
    rw [List.zipWith_cons_cons, List.map_cons, List.map_cons, ih]
    congr 1
    split
    · rfl
    · rename_i htyped
      exact (hslot.resolve_left htyped).symm

end

/-! ### Histories -/

structure History where
  world : World
  /-- The bind rows with which a cursor was parsed. -/
  parsed : Nat → BindRows
  /-- For each execute of a cached cursor the rows of the parse and its own. -/
  reused : List (BindRows × BindRows)

def History.start (statementCacheSize : Nat) : History := ⟨World.start statementCacheSize, fun _ => [], []⟩

/-- An execute without a cursor parses one. A cursor that the cache still has is the one that was parsed before. -/
def parsedAfter (parsed : Nat → BindRows) (s : Started) (rows : BindRows) : Outcome → Nat → BindRows
  | .ok cursorId _ _ _ =>
    if s.cursorId = 0 ∧ cursorId ∉ cursorIds s.conn.statementCache then Function.update parsed cursorId rows
    else parsed
  | _ => parsed

/-- An action, with the bind rows if it is an execute. -/
def historyStep (h : History) : Action × BindRows → Option History
  | (.execute e outcome, rows) => (step h.world (.execute e outcome)).map fun w =>
    let s := startExecute h.world.conn e
    { world := w
      parsed := parsedAfter h.parsed s rows outcome
      reused := if s.cursorId = 0 then h.reused else h.reused ++ [(h.parsed s.cursorId, rows)] }
  | (a, _) => (step h.world a).map fun w => { h with world := w }

def returnsExecuted (executed : Nat) : Outcome → Bool
  | .ok cursorId _ _ _ => executed == 0 || cursorId == executed
  | _ => true

/-- All executes are of one text, the cache chooses their cursors, and the server returns the cursor that was executed
again. -/
def OneText (sql : String) (h : History) : Action × BindRows → Prop
  | (.execute e outcome, rows) => e.sql = sql ∧ e.options.cursorId = 0 ∧ e.bindShape = bindTypeShape rows ∧
    returnsExecuted (startExecute h.world.conn e).cursorId outcome
  | _ => True

/-- At most one cursor is cached, under the text and with the types of its parse. -/
structure Attributed (sql : String) (parsed : Nat → BindRows) (cache : List CachedStatement) : Prop where
  length_le : cache.length ≤ 1
  sql_eq : ∀ entry ∈ cache, entry.sql = sql
  id_ne_zero : ∀ entry ∈ cache, entry.cursorId ≠ 0
  types : ∀ entry ∈ cache,
    entry.bindShape.map BindShapeSlot.type = (bindTypeShape (parsed entry.cursorId)).map BindShapeSlot.type

section

variable {sql : String} {parsed : Nat → BindRows} {cache cache' : List CachedStatement} {c : Connection} {e : Execute}
  {entry : CachedStatement} {rows : BindRows} {outcome : Outcome}

theorem Attributed.restrict (h : Attributed sql parsed cache) (hcache : cache'.Subperm cache) :
    Attributed sql parsed cache' where
  length_le := Nat.le_trans hcache.length_le h.length_le
  sql_eq entry hentry := h.sql_eq entry (hcache.subset hentry)
  id_ne_zero entry hentry := h.id_ne_zero entry (hcache.subset hentry)
  types entry hentry := h.types entry (hcache.subset hentry)

private theorem closeCursor_sublist (c : Connection) (id : Nat) :
    (c.closeCursor id).statementCache.Sublist c.statementCache := by
  unfold Connection.closeCursor
  split
  · exact List.Sublist.refl _
  · exact List.filter_sublist

private theorem invalidate_sublist (c : Connection) (sql : String) (id : Nat) :
    (c.statementCacheInvalidate sql id).statementCache.Sublist c.statementCache :=
  (closeCursor_sublist _ id).trans List.eraseP_sublist

theorem Chooses.subperm {choice : Nat × Bool × Connection} (h : Chooses c e choice) :
    choice.2.2.statementCache.Subperm c.statementCache := by
  cases h with
  | own | copy | parse => exact List.Subperm.refl _
  | reuse _ _ _ hfind => exact (perm_eraseP_append hfind).subperm
  | take => exact List.eraseP_sublist.subperm
  | reshape => exact (invalidate_sublist _ _ _).subperm

theorem Attributed.eq_nil (h : Attributed sql parsed cache) (hfind : cache.find? (·.sql == sql) = none) :
    cache = [] := by
  refine List.eq_nil_iff_forall_not_mem.2 fun entry hentry => ?_
  simpa [h.sql_eq entry hentry] using List.find?_eq_none.1 hfind entry hentry

theorem Attributed.eq_singleton (h : Attributed sql parsed cache) (hentry : entry ∈ cache) : cache = [entry] := by
  have hlength := h.length_le
  match cache with
  | [other] => rw [List.mem_singleton.1 hentry]
  | _ :: _ :: _ => simp at hlength

/-- What an execute finds in the cache before its round trip. -/
theorem Attributed.started (h : Attributed e.sql parsed c.statementCache) (hnone : e.options.cursorId = 0) :
    Attributed e.sql parsed (startExecute c e).conn.statementCache ∧
    ((startExecute c e).cursorId ≠ 0 → ∃ entry ∈ c.statementCache, entry.cursorId = (startExecute c e).cursorId ∧
      bindShapeIsCompatible entry.bindShape e.bindShape = true ∧
      (e.useCache = true → entry ∈ (startExecute c e).conn.statementCache)) ∧
    ((startExecute c e).cursorId = 0 → (startExecute c e).isCopy = false → e.useCache = true →
      (startExecute c e).conn.statementCache = []) := by
  have hchooses := chooses c e
  unfold startExecute
  generalize chooseCursor c e = choice at hchooses ⊢
  refine ⟨h.restrict hchooses.subperm, ?_, ?_⟩
  · intro hid
    cases hchooses with
    | own => exact absurd hnone hid
    | copy | parse | reshape => exact absurd rfl hid
    | @reuse entry _ _ _ hfind hshape =>
      exact ⟨entry, List.mem_of_find?_eq_some hfind, rfl, hshape, fun _ =>
        by simp [Connection.takeCloseCursorsPiggyback]⟩
    | @take entry _ hcache hfind hshape =>
      exact ⟨entry, List.mem_of_find?_eq_some hfind, rfl, hshape, fun huse => by simp [hcache] at huse⟩
  · intro hid hcopy huse
    cases hchooses with
    | own hown => exact absurd ⟨hnone, by simp_all [Execute.useCache]⟩ hown
    | copy => cases hcopy
    | parse _ hfind => exact h.eq_nil hfind
    | reuse _ _ _ hfind => exact absurd hid (h.id_ne_zero _ (List.mem_of_find?_eq_some hfind))
    | take _ hcache => rw [hcache] at huse; cases huse
    | @reshape entry _ _ hfind =>
      refine List.sublist_nil.1 ((closeCursor_sublist _ _).trans ?_)
      rw [h.eq_singleton (List.mem_of_find?_eq_some hfind), List.eraseP_cons_of_pos (List.find?_some hfind)]

private theorem attributed_evict {id : Nat} {shape : List BindShapeSlot} (capacity : Nat) (hid : id ≠ 0)
    (htypes : shape.map BindShapeSlot.type = (bindTypeShape (parsed id)).map BindShapeSlot.type) :
    Attributed sql parsed (evict capacity [⟨sql, id, shape⟩]).1 := by
  rw [evict_eq]
  exact Attributed.restrict ⟨by simp, by simp, by simpa using hid, by simpa using htypes⟩
    (List.drop_sublist _ _).subperm

theorem Attributed.reparsed {s : Started} (h : Attributed sql parsed s.conn.statementCache) (rows : BindRows)
    (outcome : Outcome) : Attributed sql (parsedAfter parsed s rows outcome) s.conn.statementCache := by
  cases outcome with
  | ok id _ _ _ =>
    dsimp only [parsedAfter]
    split
    · rename_i hnew
      refine { h with types := fun entry hentry => ?_ }
      have hne : entry.cursorId ≠ id := fun heq => hnew.2 (heq ▸ List.mem_map_of_mem hentry)
      rw [Function.update_of_ne hne]
      exact h.types entry hentry
    · exact h
  | serverError | otherError | lost => exact h

/-- Recording the cursor of an execute keeps its types: they are those of the parse, or inherited. -/
theorem Attributed.recorded {id : Nat} {described lobPrefetch : Bool} {delivery : Delivery}
    (h : Attributed e.sql parsed c.statementCache) (hnone : e.options.cursorId = 0)
    (hrows : e.bindShape = bindTypeShape rows)
    (hsame : returnsExecuted (startExecute c e).cursorId (.ok id described lobPrefetch delivery) = true) :
    Attributed e.sql (parsedAfter parsed (startExecute c e) rows (.ok id described lobPrefetch delivery))
      (recordCursor (startExecute c e).conn e (startExecute c e).isCopy id).statementCache := by
  obtain ⟨hstart, hreuse, hparse⟩ := h.started hnone
  generalize startExecute c e = s at hstart hreuse hparse hsame ⊢
  have hkept := hstart.reparsed rows (.ok id described lobPrefetch delivery)
  unfold recordCursor
  split
  · split <;> exact hkept
  split
  swap
  · exact hkept
  rename_i hcopy huse
  by_cases hid : id = 0
  · simpa [Connection.statementCachePut, statementCacheInsert, hid] using hkept
  by_cases hfresh : s.cursorId = 0
  · have hcache := hparse hfresh (by simpa using hcopy) huse
    simp only [Connection.statementCachePut, statementCacheInsert, hcache, if_neg hid]
    refine attributed_evict _ hid ?_
    simp [parsedAfter, hfresh, hcache, cursorIds, hrows]
  · obtain ⟨entry, hentry, hcursor, hshape, hcached⟩ := hreuse hfresh
    obtain rfl : id = entry.cursorId := by simpa [returnsExecuted, hfresh, hcursor] using hsame
    have hcache := hstart.eq_singleton (hcached huse)
    have hsql : (entry.sql == e.sql) = true := by simpa using h.sql_eq entry hentry
    simp only [Connection.statementCachePut, statementCacheInsert, hcache, if_neg hid, List.find?_cons,
      List.eraseP_cons,
      hsql, cond_true]
    refine attributed_evict _ hid ?_
    have hlength := (bindShapeIsCompatible_iff.1 hshape).length_eq
    simp only [replaceStatement, parsedAfter, hfresh, hlength, ne_eq, not_true_eq_false, and_false, if_false,
      and_self,
      if_true, false_and]
    rw [types_inherit hshape]
    exact h.types entry hentry

private theorem attributed_step {history history' : History} {a : Action × BindRows}
    (h : Attributed sql history.parsed history.world.conn.statementCache)
    (hreused : ∀ pair ∈ history.reused, BoundAsParsed pair.1 pair.2) (hok : OneText sql history a)
    (hs : historyStep history a = some history') :
    Attributed sql history'.parsed history'.world.conn.statementCache ∧
      ∀ pair ∈ history'.reused, BoundAsParsed pair.1 pair.2 := by
  obtain ⟨a, rows⟩ := a
  cases a with
  | execute e outcome =>
    obtain ⟨rfl, hnone, hrows, hsame⟩ := hok
    obtain rfl := Option.some.inj hs
    obtain ⟨hstart, hreuse, -⟩ := h.started hnone
    refine ⟨?_, ?_⟩
    · cases outcome with
      | ok id described lobPrefetch delivery =>
        refine (h.recorded hnone hrows hsame).restrict (List.Sublist.subperm ?_)
        obtain ⟨columns, lobs, hresult⟩ := recordResult_eq (startExecute history.world.conn e).conn e
          (startExecute history.world.conn e).isCopy id described lobPrefetch
        dsimp only [finishExecute]
        rw [hresult]
        split
        · exact (closeCursor_sublist _ id).trans List.filter_sublist
        · exact List.filter_sublist
      | serverError id =>
        refine hstart.restrict (List.Sublist.subperm ?_)
        dsimp only [finishExecute]
        split
        · exact (invalidate_sublist _ _ _).trans (closeCursor_sublist _ id)
        · exact closeCursor_sublist _ id
      | otherError =>
        refine hstart.restrict (List.Sublist.subperm ?_)
        dsimp only [finishExecute]
        split
        · exact invalidate_sublist _ _ _
        · exact List.Sublist.refl _
      | lost => exact hstart
    · intro pair hpair
      dsimp only at hpair
      split at hpair
      · exact hreused pair hpair
      · rename_i hid
        rcases List.mem_append.1 hpair with hpair | hpair
        · exact hreused pair hpair
        · obtain ⟨entry, hentry, hcursor, hshape, -⟩ := hreuse hid
          rw [List.mem_singleton.1 hpair, ← hcursor]
          exact boundAsParsed_of_isCompatible (h.types entry hentry) (hrows ▸ hshape)
  | scroll id outcome =>
    obtain rfl := Option.some.inj hs
    refine ⟨h.restrict (List.Sublist.subperm ?_), hreused⟩
    cases outcome with
    | ok => dsimp only [scrollConn]; split <;> exact List.Sublist.refl _
    | serverError id => exact closeCursor_sublist _ id
    | otherError | lost => exact List.Sublist.refl _
  | release id =>
    obtain rfl := Option.some.inj hs
    refine ⟨?_, hreused⟩
    dsimp only [Connection.releaseCursor]
    split
    · exact h
    · split <;> exact h
  | close id =>
    obtain rfl := Option.some.inj hs
    exact ⟨h.restrict (closeCursor_sublist _ id).subperm, hreused⟩

end

/-- Along every run with one SQL text, each execute of a cached cursor has bound the types of its parse. -/
theorem reused_as_parsed (sql : String) (size : Nat) (actions : List (Action × BindRows))
    (h : EachStep historyStep (OneText sql) (History.start size) actions) :
    Along historyStep (fun history => ∀ pair ∈ history.reused, BoundAsParsed pair.1 pair.2)
    (History.start size) actions := by
  have hall : Along historyStep (fun history => Attributed sql history.parsed history.world.conn.statementCache ∧
      ∀ pair ∈ history.reused, BoundAsParsed pair.1 pair.2) (History.start size) actions :=
    along_of_eachStep (I := fun _ => True) (fun _ _ _ _ _ => trivial)
      (fun _ _ _ _ hw hok hs => attributed_step hw.1 hw.2 hok hs) trivial
      ⟨⟨Nat.zero_le _, nofun, nofun, nofun⟩, nofun⟩ h
  exact hall.mono fun _ hw => hw.2

instance (sql : String) (history : History) (a : Action × BindRows) : Decidable (OneText sql history a) :=
  match a with
  | (.execute _ _, _) => inferInstanceAs (Decidable (_ ∧ _ ∧ _ ∧ _))
  | (.scroll _ _, _) | (.release _, _) | (.close _, _) => inferInstanceAs (Decidable True)

/-- A number is bound, then NULL, then a number again. -/
def rebindRun : List (Action × BindRows) :=
  [[[BindValue.binaryDouble 0]], [[.null]], [[.binaryDouble 0]]].map fun rows =>
    (.execute { sql := "u", isQuery := false, bindShape := bindTypeShape rows } (.ok 1 false false .returned), rows)

theorem reused_as_parsed_rebindRun :
    (exec historyStep (History.start 1) rebindRun).map (fun history => history.reused.length) = some 2 ∧
      Along historyStep (fun history => ∀ pair ∈ history.reused, BoundAsParsed pair.1 pair.2)
      (History.start 1) rebindRun :=
  ⟨by decide, reused_as_parsed "u" 1 rebindRun (by decide)⟩

end OracleThin.Cursor
