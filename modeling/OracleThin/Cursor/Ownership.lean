import OracleThin.Cursor.Books

/-!
# An open query cursor stays with its owner

The world is a connection, the ids that the server has open and the ids that live owners hold. `taken` records the ids
that were listed in a close-cursors piggyback, or executed for another execute, while they were held. Some paths of
the driver do not ask whether a cursor is in use: the removal of a cached cursor by an execute without caching, and
the eviction from a full cache. In the runs that avoid them nothing is ever taken from an owner.
-/

namespace OracleThin.Cursor

open Lib

/-! ### The property and the condition -/

/-- No cursor was taken from an owner so far. -/
def NothingTaken (w : World) : Prop := w.taken = []

instance : DecidablePred NothingTaken := fun w => inferInstanceAs (Decidable (w.taken = []))

/-- The entries that a cached execute of `sql` pushes out of the cache. -/
def pushedOut (c : Connection) (sql : String) : List CachedStatement :=
  let others := c.statementCache.eraseP (·.sql == sql)
  others.take (others.length + 1 - c.statementCacheSize)

def Outcome.succeeds : Outcome → Bool
  | .ok _ _ _ _ => true
  | _ => false

/-- The execute minds the cursors of others: one that continues a cursor continues the caller's own and is not cached;
one without caching finds no cursor with an owner in the cache; a cached one that succeeds pushes no cursor with an
owner out, its own included. -/
structure Considerate (w : World) (e : Execute) (outcome : Outcome) : Prop where
  own : e.options.cursorId ≠ 0 → e.options.cursorId ∈ w.held ∧ e.useCache = false
  uncached : e.options.cursorId = 0 → e.options.parseOnly = false → e.options.cacheStatement = false →
    ∀ entry ∈ w.conn.statementCache, entry.sql = e.sql → entry.cursorId ∉ w.held
  cached : e.useCache = true → w.conn.statementIsInUse e.sql = false → outcome.succeeds = true →
    (e.isQuery = true → 0 < w.conn.statementCacheSize) ∧
      ∀ entry ∈ pushedOut w.conn e.sql, entry.cursorId ∉ w.held

instance (w : World) (e : Execute) (outcome : Outcome) : Decidable (Considerate w e outcome) :=
  have : Decidable (∀ entry ∈ w.conn.statementCache, entry.sql = e.sql → entry.cursorId ∉ w.held) :=
    List.decidableBAll _ _
  have : Decidable (∀ entry ∈ pushedOut w.conn e.sql, entry.cursorId ∉ w.held) := List.decidableBAll _ _
  decidable_of_iff (_ ∧ _ ∧ _) ⟨fun h => ⟨h.1, h.2.1, h.2.2⟩, fun h => ⟨h.own, h.uncached, h.cached⟩⟩

def MindsInUse (w : World) : Action → Prop
  | .execute e outcome => Considerate w e outcome
  | _ => True

instance (w : World) : DecidablePred (MindsInUse w)
  | .execute e outcome => inferInstanceAs (Decidable (Considerate w e outcome))
  | .scroll .. | .release _ | .close _ => instDecidableTrue

/-! ### The invariant -/

/-- Nobody holds a cursor that is queued to be closed, and a held cursor in the cache is marked as in use. -/
structure Owned (cache : List CachedStatement) (inUse queue held opened : List Nat) : Prop where
  ne_zero : ∀ id ∈ held, id ≠ 0
  not_queued : ∀ id ∈ held, id ∉ queue
  in_use : ∀ id ∈ held, id ∈ cursorIds cache → id ∈ inUse
  opened : ∀ id ∈ held, id ∈ opened

abbrev ConnOwned (c : Connection) (held opened : List Nat) : Prop :=
  Owned c.statementCache c.inUseCursors c.cursorsToClose held opened

section

variable {cache cache' : List CachedStatement} {inUse inUse' queue queue' held held' opened opened' : List Nat}
    {id : Nat}
  {c : Connection} {sql : String} {entry : CachedStatement}

section

variable (h : Owned cache inUse queue held opened)

include h

/-- Fewer owners; the cursors of those that stay are not queued, stay open and keep their mark. -/
theorem Owned.restrict (hheld : ∀ x ∈ held', x ∈ held)
    (hqueue : ∀ x ∈ held', x ∉ queue') (hcache : ∀ x ∈ held', x ∈ cursorIds cache' → x ∈ cursorIds cache)
    (hinUse : ∀ x ∈ held', x ∈ inUse → x ∈ inUse') (hopened : ∀ x ∈ held', x ∈ opened → x ∈ opened') :
    Owned cache' inUse' queue' held' opened' where
  ne_zero x hx := h.ne_zero x (hheld x hx)
  not_queued := hqueue
  in_use x hx hc := hinUse x hx (h.in_use x (hheld x hx) (hcache x hx hc))
  opened x hx := hopened x hx (h.opened x (hheld x hx))

theorem Owned.sublist (hcache : cache'.Sublist cache) :
    Owned cache' inUse queue held opened :=
  { h with in_use := fun x hx hc => h.in_use x hx ((hcache.map _).subset hc) }

theorem Owned.open (id : Nat) : Owned cache inUse queue held (id :: opened) :=
  { h with opened := fun x hx => List.mem_cons_of_mem _ (h.opened x hx) }

theorem Owned.flush : Owned cache inUse [] held (opened.filter (· ∉ queue)) :=
  { h with
    not_queued := fun _ _ => List.not_mem_nil
    opened := fun x hx => by simpa using ⟨h.opened x hx, h.not_queued x hx⟩ }

/-- An owner gets an open cursor that is not queued and, if it is cached, marked. -/
theorem Owned.hold (hzero : id ≠ 0) (hqueue : id ∉ queue)
    (hinUse : id ∈ cursorIds cache → id ∈ inUse) (hopened : id ∈ opened) :
    Owned cache inUse queue (held.insert id) opened where
  ne_zero x hx := (List.mem_insert_iff.1 hx).elim (fun he => he ▸ hzero) (h.ne_zero x)
  not_queued x hx := (List.mem_insert_iff.1 hx).elim (fun he => he ▸ hqueue) (h.not_queued x)
  in_use x hx := (List.mem_insert_iff.1 hx).elim (fun he => he ▸ hinUse) (h.in_use x)
  opened x hx := (List.mem_insert_iff.1 hx).elim (fun he => he ▸ hopened) (h.opened x)

end

section

variable (h : ConnOwned c held opened)

include h

theorem ConnOwned.closeCursor (hid : id ∉ held) :
    ConnOwned (c.closeCursor id) held opened := by
  unfold Connection.closeCursor
  split
  · exact h
  · refine Owned.restrict h (fun _ hx => hx) (fun x hx => ?_) (fun x _ hc => (List.filter_sublist.map _).subset hc)
      (fun x hx hu => mem_without.2 ⟨hu, fun he => hid (he ▸ hx)⟩) fun _ _ ho => ho
    split
    · exact h.not_queued x hx
    · exact fun hq => (List.mem_append.1 hq).elim (h.not_queued x hx) fun he => hid (List.mem_singleton.1 he ▸ hx)

theorem ConnOwned.disown (id : Nat) : ConnOwned c (without id held) opened :=
  Owned.restrict h (fun _ hx => (mem_without.1 hx).1) (fun x hx => h.not_queued x (mem_without.1 hx).1)
    (fun _ _ hc => hc) (fun _ _ hu => hu) fun _ _ ho => ho

theorem ConnOwned.close : ConnOwned (c.closeCursor id) (without id held) opened :=
  ConnOwned.closeCursor (h.disown id) fun hm => (mem_without.1 hm).2 rfl

theorem ConnOwned.release : ConnOwned (c.releaseCursor id) (without id held) opened := by
  have hdisown := h.disown id
  unfold Connection.releaseCursor
  split
  · exact hdisown
  · have hinUse : ∀ x ∈ without id held, x ∈ c.inUseCursors → x ∈ without id c.inUseCursors :=
      fun x hx hu => mem_without.2 ⟨hu, (mem_without.1 hx).2⟩
    split
    · refine Owned.restrict hdisown (fun _ hx => hx) (fun x hx hq => ?_) (fun _ _ hc => hc) hinUse fun _ _ ho => ho
      exact (List.mem_append.1 hq).elim (hdisown.not_queued x hx) fun he =>
        (mem_without.1 hx).2 (List.mem_singleton.1 he)
    · exact Owned.restrict hdisown (fun _ hx => hx) hdisown.not_queued (fun _ _ hc => hc) hinUse fun _ _ ho => ho

theorem ConnOwned.invalidate (hid : id ∉ held) :
    ConnOwned (c.statementCacheInvalidate sql id) held opened :=
  ConnOwned.closeCursor (c := { c with statementCache := c.statementCache.eraseP (·.sql == sql) })
    (h.sublist List.eraseP_sublist) hid

theorem ConnOwned.not_held (hentry : entry ∈ c.statementCache)
    (hfree : entry.cursorId = 0 ∨ entry.cursorId ∉ c.inUseCursors) : entry.cursorId ∉ held := by
  intro hheld
  rcases hfree with hzero | hfree
  · exact h.ne_zero _ hheld hzero
  · exact hfree (h.in_use _ hheld (List.mem_map_of_mem hentry))

theorem ConnOwned.not_held_of_find
    (hfind : c.statementCache.find? (·.sql == sql) = some entry) (hfree : c.statementIsInUse sql = false) :
    entry.cursorId ∉ held :=
  h.not_held (List.mem_of_find?_eq_some hfind) (statementIsInUse_eq_false hfind hfree)

end

/-- The choice of a cursor leaves the entries of the other texts alone, and caches nothing. -/
theorem Chooses.others {e : Execute} {choice : Nat × Bool × Connection} (h : Chooses c e choice)
    (hbooks : ConnBooks c opened) :
    choice.2.2.statementCache.eraseP (·.sql == e.sql) = c.statementCache.eraseP (·.sql == e.sql) ∧
      choice.2.2.statementCacheSize = c.statementCacheSize ∧
      ∀ old, choice.2.2.statementCache.find? (·.sql == e.sql) = some old →
        c.statementCache.find? (·.sql == e.sql) = some old := by
  have hnone : ∀ x ∈ c.statementCache.eraseP (·.sql == e.sql), ¬(x.sql == e.sql) = true := by
    intro x hx hsql
    refine sql_not_mem_eraseP hbooks.sqls_nodup (List.mem_map.2 ⟨x, hx, ?_⟩)
    simpa using hsql
  cases h with
  | own | copy | parse => exact ⟨rfl, rfl, fun _ hfound => hfound⟩
  | reuse _ _ _ hfind =>
    have hsql := List.find?_some hfind
    refine ⟨?_, rfl, fun old hfound => ?_⟩
    · rw [List.eraseP_append_right _ hnone]
      simp_all
    · rw [List.find?_append, List.find?_eq_none.2 hnone] at hfound
      simp_all
  | take => exact ⟨List.eraseP_of_forall_not hnone, rfl,
      fun old hfound => by simp [List.find?_eq_none.2 hnone] at hfound⟩
  | @reshape entry _ _ hfind =>
    have hother := id_not_mem_eraseP hbooks.sqls_nodup hbooks.ids_nodup (List.mem_of_find?_eq_some hfind)
      (by simpa using List.find?_some hfind)
    have hkept : (c.statementCacheInvalidate e.sql entry.cursorId).statementCache =
        c.statementCache.eraseP (·.sql == e.sql) := by
      dsimp only [Connection.statementCacheInvalidate, Connection.closeCursor]
      split
      · rfl
      · refine List.filter_eq_self.2 fun x hx => ?_
        simpa using fun he : x.cursorId = entry.cursorId => hother (he ▸ List.mem_map_of_mem hx)
    rw [hkept]
    refine ⟨List.eraseP_of_forall_not hnone, ?_, fun old hfound => by simp [List.find?_eq_none.2 hnone] at hfound⟩
    dsimp only [Connection.statementCacheInvalidate, Connection.closeCursor]
    split <;> rfl

end

section

variable {w : World} {e : Execute} {outcome : Outcome} {s : Started} {id : Nat} {described lobPrefetch : Bool}

/-- What an execute has done to the owners before its round trip. -/
structure StartOwned (w : World) (e : Execute) (s : Started) : Prop extends StartBooks w.opened e s where
  owned : ConnOwned s.conn w.held (w.opened.filter (· ∉ s.listed))
  listed : ∀ id ∈ s.listed, id ∉ w.held
  own : ¬e.LeavesChoice → s.cursorId = e.options.cursorId
  foreign : e.options.cursorId = 0 → s.cursorId ∉ w.held
  free : e.LeavesChoice → e.useCache = true → s.isCopy = false → w.conn.statementIsInUse e.sql = false
  others : s.conn.statementCache.eraseP (·.sql == e.sql) = w.conn.statementCache.eraseP (·.sql == e.sql)
  size : s.conn.statementCacheSize = w.conn.statementCacheSize
  found : ∀ old, s.conn.statementCache.find? (·.sql == e.sql) = some old →
    w.conn.statementCache.find? (·.sql == e.sql) = some old

private theorem startOwned (hbooks : ConnBooks w.conn w.opened) (h : ConnOwned w.conn w.held w.opened)
    (hminds : Considerate w e outcome) : StartOwned w e (startExecute w.conn e) := by
  have hheld0 : 0 ∉ w.held := fun hm => h.ne_zero 0 hm rfl
  have huncached : e.LeavesChoice → e.useCache = false →
      ∀ entry ∈ w.conn.statementCache.find? (·.sql == e.sql), entry.cursorId ∉ w.held :=
    fun hleaves hcache entry hfind => hminds.uncached hleaves.1 hleaves.2
      (by simpa [Execute.useCache, hleaves.2] using hcache) entry (List.mem_of_find?_eq_some hfind)
      (by simpa using List.find?_some hfind)
  have hchooses := chooses w.conn e
  have hothers := hchooses.others hbooks
  have hstart := startBooks hbooks e
  unfold startExecute at hstart ⊢
  generalize chooseCursor w.conn e = choice at hchooses hothers hstart ⊢
  have hfree : e.LeavesChoice → e.useCache = true → choice.2.1 = false → w.conn.statementIsInUse e.sql = false := by
    intro hleaves hcache hcopy
    cases hchooses with
    | own hown => exact absurd hleaves hown
    | copy => cases hcopy
    | parse _ hfind => simp [Connection.statementIsInUse, hfind]
    | reuse _ _ hfree => exact hfree
    | take _ huncache => exact Bool.noConfusion (hcache.symm.trans huncache)
    | reshape _ hfree => exact hfree hcache
  have hchosen : ConnOwned choice.2.2 w.held w.opened ∧ (e.options.cursorId = 0 → choice.1 ∉ w.held) := by
    cases hchooses with
    | own => exact ⟨h, fun hnone => hnone ▸ hheld0⟩
    | copy | parse => exact ⟨h, fun _ => hheld0⟩
    | reuse _ _ hidle hfind =>
      refine ⟨{ h with in_use := fun x hx hc => h.in_use x hx ?_ }, fun _ => h.not_held_of_find hfind hidle⟩
      exact ((perm_eraseP_append hfind).map _).mem_iff.1 hc
    | take hleaves hcache hfind =>
      exact ⟨h.sublist List.eraseP_sublist, fun _ => huncached hleaves hcache _ hfind⟩
    | reshape hleaves hidle hfind =>
      refine ⟨h.invalidate ?_, fun _ => hheld0⟩
      cases hcache : e.useCache with
      | true => exact h.not_held_of_find hfind (hidle hcache)
      | false => exact huncached hleaves hcache _ hfind
  refine ⟨hstart, hchosen.1.flush, fun id hid hheld => hchosen.1.not_queued id hheld hid, ?_, hchosen.2, hfree,
    hothers.1, hothers.2.1, hothers.2.2⟩
  intro hown
  cases hchooses with
  | own => rfl
  | copy hleaves | parse hleaves | reuse hleaves | take hleaves | reshape hleaves => exact absurd hleaves hown

/-- The cursor of a call is held by nobody, unless it is the caller's own. -/
theorem StartOwned.not_held (h : StartOwned w e s)
    (hnames : id = 0 ∨ id = s.cursorId ∨ id ∉ w.opened.filter (· ∉ s.listed))
    (hforeign : e.options.cursorId = 0 ∨ id ≠ e.options.cursorId) : id ∉ w.held := by
  intro hheld
  rcases hnames with hzero | hexecuted | hfresh
  · exact h.owned.ne_zero id hheld hzero
  · by_cases hzero : e.options.cursorId = 0
    · exact h.foreign hzero (hexecuted ▸ hheld)
    · exact hforeign.elim hzero (· (hexecuted.trans (h.own fun hleaves => hzero hleaves.1)))
  · exact hfresh (h.owned.opened id hheld)

/-! ### Recording a result -/

theorem Considerate.leavesChoice (h : Considerate w e outcome) (hcache : e.useCache = true) : e.LeavesChoice := by
  refine ⟨?_, by simp_all [Execute.useCache]⟩
  by_contra hne
  exact absurd hcache (by simp [(h.own hne).2])

private theorem recordCursor_parseOnly (c : Connection) (isCopy : Bool) (id : Nat)
    (hparse : e.options.parseOnly = true) :
    (recordCursor c e isCopy id).statementCache = c.statementCache ∧
      (recordCursor c e isCopy id).inUseCursors = c.inUseCursors := by
  have hcache : e.useCache = false := by simp [Execute.useCache, hparse]
  unfold recordCursor
  rw [hcache]
  split
  · split <;> exact ⟨rfl, rfl⟩
  · exact ⟨rfl, rfl⟩

section

variable (hinv : ConnOwned w.conn w.held w.opened) (h : StartOwned w e s) (hminds : Considerate w e outcome)
  (hsucceeds : outcome.succeeds = true)
include hinv h hminds hsucceeds

/-- A cached execute queues the replaced and the pushed out cursors, which nobody holds, and keeps its own. -/
theorem StartOwned.put (hcache : e.useCache = true) (hcopy : s.isCopy = false) (hid : id ≠ 0)
    (hnames : id = s.cursorId ∨ id ∉ w.opened.filter (· ∉ s.listed)) :
    ConnOwned (s.conn.statementCachePut e.sql id e.bindShape) w.held (id :: w.opened.filter (· ∉ s.listed)) ∧
      (e.isQuery = true → id ∉ (s.conn.statementCachePut e.sql id e.bindShape).cursorsToClose) := by
  have hleaves := hminds.leavesChoice hcache
  have hheld := h.not_held (Or.inr hnames) (Or.inl hleaves.1)
  obtain ⟨hsize, hpushed⟩ := hminds.cached hcache (h.free hleaves hcache hcopy) hsucceeds
  have hbooks := h.toStartBooks.put hcache hleaves.1 hid hnames
  obtain ⟨entry, replaced, hsql, hcursor, hreplaced, hput⟩ := statementCachePut_eq s.conn e.sql e.bindShape hid
  rw [pushedOut, ← h.others, ← h.size] at hpushed
  rw [← h.size] at hsize
  have hothers : ∀ x ∈ w.held, x ∈ cursorIds (s.conn.statementCache.eraseP (·.sql == e.sql) ++ [entry]) →
      x ∈ cursorIds (s.conn.statementCache.eraseP (·.sql == e.sql)) := by
    intro x hx hc
    rw [cursorIds, List.map_append, List.mem_append] at hc
    exact hc.resolve_right fun he => hheld (hcursor ▸ List.mem_singleton.1 he ▸ hx)
  rw [hput] at hbooks ⊢
  refine ⟨Owned.restrict (h.owned.open id) (fun _ hx => hx) (fun x hx hq => ?_) (fun x hx hc => ?_) (fun _ _ hu => hu)
    fun _ _ ho => ho, fun hquery => hbooks.cached_not_queued id ?_⟩
  · rw [h.queue, List.nil_append, List.mem_append] at hq
    rcases hq with hq | hq
    · rcases hreplaced with rfl | ⟨old, hfind, -, rfl⟩
      · exact absurd hq List.not_mem_nil
      · exact hinv.not_held_of_find (h.found old hfind) (h.free hleaves hcache hcopy) (List.mem_singleton.1 hq ▸ hx)
    · obtain ⟨old, hold, rfl⟩ := List.mem_map.1 (List.mem_of_mem_filter hq)
      rw [List.length_append, List.length_singleton, List.take_append, List.mem_append] at hold
      rcases hold with hold | hold
      · exact hpushed old hold hx
      · obtain rfl := List.mem_singleton.1 (List.mem_of_mem_take hold)
        exact hheld (hcursor ▸ hx)
  · refine (List.eraseP_sublist.map CachedStatement.cursorId).subset (hothers x hx ?_)
    exact ((List.drop_sublist _ _).map _).subset hc
  · have hpos := hsize hquery
    rw [List.length_append, List.length_singleton, List.drop_append_of_le_length (by omega)]
    simp [cursorIds, hcursor]

variable (hnames : id = 0 ∨ id = s.cursorId ∨ id ∉ w.opened.filter (· ∉ s.listed))
include hnames

/-- Recording the cursor of a call queues nobody's cursor, and not the cursor of a query. -/
theorem StartOwned.recordCursor :
    ConnOwned (recordCursor s.conn e s.isCopy id) w.held (id :: w.opened.filter (· ∉ s.listed)) ∧
      (id ≠ 0 → e.isQuery = true → id ∉ (Cursor.recordCursor s.conn e s.isCopy id).cursorsToClose) := by
  have hopen : ConnOwned s.conn w.held (id :: w.opened.filter (· ∉ s.listed)) := h.owned.open id
  have hempty : id ∉ s.conn.cursorsToClose := by
    rw [h.queue]
    exact List.not_mem_nil
  unfold Cursor.recordCursor
  split
  · split <;> exact ⟨hopen, fun _ _ => hempty⟩
  · rename_i hcopy
    split
    · rename_i hcache
      by_cases hid : id = 0
      · subst hid
        exact ⟨by simpa [Connection.statementCachePut, statementCacheInsert] using hopen, fun hne => absurd rfl hne⟩
      · have hput := h.put hinv hminds hsucceeds hcache (by simpa using hcopy) hid (hnames.resolve_left hid)
        exact ⟨hput.1, fun _ => hput.2⟩
    · exact ⟨hopen, fun _ _ => hempty⟩

/-- After a successful execute nobody's cursor is queued, and the cursor of a query can be handed to an owner. -/
theorem StartOwned.recordResult :
    ConnOwned (recordResult s.conn e s.isCopy id described lobPrefetch) w.held
    (id :: w.opened.filter (· ∉ s.listed)) ∧
      (id ≠ 0 → e.isQuery = true →
        ConnOwned (Cursor.recordResult s.conn e s.isCopy id described lobPrefetch) (w.held.insert id)
          (id :: w.opened.filter (· ∉ s.listed))) := by
  obtain ⟨hrecord, hqueue⟩ := h.recordCursor hinv hminds hsucceeds hnames
  obtain ⟨columns, lobs, hresult⟩ := recordResult_eq s.conn e s.isCopy id described lobPrefetch
  rw [hresult]
  have hkept : Owned ((Cursor.recordCursor s.conn e s.isCopy id).statementCache.filter fun entry =>
      entry.cursorId = 0 ∨ entry.cursorId ∉ e.boundCursors) _ _ _ _ := hrecord.sublist List.filter_sublist
  by_cases hmark : id ≠ 0 ∧ e.isQuery = true ∧ e.options.parseOnly = false
  · simp only [if_pos hmark]
    have hmarked : Owned _ ((Cursor.recordCursor s.conn e s.isCopy id).inUseCursors.insert id) _ _ _ := hkept.restrict
      (fun _ hx => hx) hkept.not_queued (fun _ _ hc => hc) (fun _ _ hu => List.mem_insert_of_mem hu) fun _ _ ho => ho
    exact ⟨hmarked, fun hid hquery => hmarked.hold hid (hqueue hid hquery)
      (fun _ => List.mem_insert_self) (List.mem_cons_self ..)⟩
  · simp only [if_neg hmark]
    refine ⟨hkept, fun hid hquery => hkept.hold hid (hqueue hid hquery) (fun hcached => ?_) (List.mem_cons_self ..)⟩
    -- Only a statement that is just parsed is not marked; its cursor is new or the caller's own.
    have hparsed : e.options.parseOnly = true := by simpa [hid, hquery] using hmark
    have hcached := (List.filter_sublist.map CachedStatement.cursorId).subset hcached
    obtain ⟨hcache, hinUse⟩ := recordCursor_parseOnly s.conn s.isCopy id hparsed
    rw [hinUse]
    rw [hcache] at hcached
    rcases hnames.resolve_left hid with hexecuted | hfresh
    · have hown : id = e.options.cursorId := hexecuted.trans (h.own fun hleaves => by simp [hleaves.2] at hparsed)
      exact h.owned.in_use id (hown ▸ (hminds.own (hown ▸ hid)).1) hcached
    · exact absurd (h.books.cached_opened id hcached) hfresh

end

/-- Every outcome of an execute keeps the owners. -/
theorem StartOwned.finishExecute (hinv : ConnOwned w.conn w.held w.opened) (h : StartOwned w e s)
    (hminds : Considerate w e outcome) (hfresh : Names w.opened s.listed s.cursorId outcome) :
    ConnOwned (finishExecute s e outcome) (heldAfter w.held e outcome) (openedAfter w.opened s.listed outcome) := by
  cases outcome with
  | ok id described lobPrefetch delivery =>
    obtain ⟨hkept, hhold⟩ := h.recordResult hinv hminds rfl hfresh
    dsimp only [Cursor.finishExecute, heldAfter, openedAfter]
    by_cases hreturned : e.options.parseOnly = true ∨ delivery = .returned
    · have hstays : ¬(delivery = .refetchFailed ∧ e.options.parseOnly = false) := by
        rintro ⟨rfl, hparse⟩
        simp [hparse] at hreturned
      rw [if_neg hstays, if_pos hreturned]
      split
      · rename_i hquery
        exact hhold hquery.1 hquery.2
      · exact hkept
    · obtain ⟨hparse, hdelivery⟩ := not_or.1 hreturned
      rw [if_neg hreturned]
      split
      · rename_i hfailed
        rw [if_pos hfailed.1]
        exact hkept.close
      · rename_i hfailed
        rw [if_neg fun hrefetch => hfailed ⟨hrefetch, by simpa using hparse⟩]
        exact hkept
  | serverError id =>
    dsimp only [Cursor.finishExecute, heldAfter, openedAfter]
    have hopen : ConnOwned s.conn w.held (id :: w.opened.filter (· ∉ s.listed)) := h.owned.open id
    by_cases hcache : e.useCache = true
    · have hzero := (hminds.leavesChoice hcache).1
      rw [if_pos hcache, if_pos (Or.inr hcache)]
      exact ((hopen.closeCursor (h.not_held hfresh (Or.inl hzero))).invalidate (h.foreign hzero)).disown _
    · rw [if_neg hcache]
      split
      · rename_i hown
        rw [← hown.resolve_right hcache]
        exact hopen.close
      · rename_i hown
        exact hopen.closeCursor (h.not_held hfresh (Or.inr fun heq => hown (Or.inl heq)))
  | otherError =>
    dsimp only [Cursor.finishExecute, heldAfter, openedAfter]
    split
    · rename_i hcache
      exact (h.owned.invalidate (h.foreign (hminds.leavesChoice hcache).1)).disown _
    · exact h.owned
  | lost => exact h.owned

theorem ConnOwned.scroll {cursorId : Nat} (hinv : ConnOwned w.conn w.held w.opened)
    (hfresh : Names w.opened w.conn.cursorsToClose cursorId outcome) :
    ConnOwned (scrollConn w.conn.takeCloseCursorsPiggyback.2 outcome) (heldAfterScroll w.held cursorId outcome)
      (openedAfter w.opened w.conn.cursorsToClose outcome) := by
  have hflush : ConnOwned w.conn.takeCloseCursorsPiggyback.2 w.held (w.opened.filter (· ∉ w.conn.cursorsToClose)) :=
    Owned.flush hinv
  cases outcome with
  | ok id described lobPrefetch delivery =>
    dsimp only [scrollConn, openedAfter]
    split <;> exact hflush.open id
  | serverError id =>
    dsimp only [scrollConn, heldAfterScroll, openedAfter]
    have hopen : ConnOwned w.conn.takeCloseCursorsPiggyback.2 w.held (id :: _) := hflush.open id
    split
    · rename_i hown
      exact hown ▸ hopen.close
    · rename_i hown
      refine hopen.closeCursor fun hheld => ?_
      rcases hfresh with hzero | hsame | hnew
      · exact hinv.ne_zero id hheld hzero
      · exact hown hsame
      · exact hnew (hflush.opened id hheld)
  | otherError | lost => exact hflush

/-! ### Steps and runs -/

/-- Nothing was taken so far, and the invariants hold. -/
structure Safe (w : World) : Prop where
  books : ConnBooks w.conn w.opened
  owned : ConnOwned w.conn w.held w.opened
  nothingTaken : NothingTaken w

private theorem safe_start (size : Nat) : Safe (World.start size) :=
  ⟨connBooks_start size, ⟨nofun, nofun, nofun, nofun⟩, rfl⟩

private theorem safe_step {w' : World} {a : Action} (h : Safe w) (hfresh : ServerFresh w a) (hminds : MindsInUse w a)
    (hstep : step w a = some w') : Safe w' := by
  obtain ⟨hbooks, hinv, htaken⟩ := h
  have htaken : w.taken = [] := htaken
  have hlisted : ∀ {ids : List Nat}, (∀ id ∈ ids, id ∉ w.held) → ids.filter (· ∈ w.held) = [] := by
    intro ids hids
    simpa [List.filter_eq_nil_iff] using hids
  have hown : OwnUncached a := by
    cases a with
    | execute e outcome => exact fun hcache => (Considerate.leavesChoice hminds hcache).1
    | scroll | release | close => trivial
  suffices hrest : ConnOwned w'.conn w'.held w'.opened ∧ NothingTaken w' from
    ⟨connBooks_step hbooks hfresh hown hstep, hrest.1, hrest.2⟩
  cases a with
  | execute e outcome =>
    obtain rfl := Option.some.inj hstep
    have hstart := startOwned hbooks hinv hminds
    refine ⟨hstart.finishExecute hinv hminds hfresh, ?_⟩
    simp only [NothingTaken, takenBy, htaken, hlisted hstart.listed,
      if_neg fun hforeign : _ ∧ _ => hstart.foreign hforeign.1 hforeign.2, List.append_nil]
  | scroll cursorId outcome =>
    obtain rfl := Option.some.inj hstep
    refine ⟨hinv.scroll hfresh, ?_⟩
    simp only [NothingTaken, htaken, List.nil_append]
    exact hlisted fun id hid hheld => hinv.not_queued id hheld hid
  | release cursorId =>
    obtain rfl := Option.some.inj hstep
    exact ⟨hinv.release, htaken⟩
  | close cursorId =>
    obtain rfl := Option.some.inj hstep
    exact ⟨hinv.close, htaken⟩

/-- In a run whose executes mind the cursors in use, no cursor is listed in a close-cursors piggyback or executed for
somebody else while its owner holds it. -/
theorem nothingTaken_of_mindsInUse (size : Nat) (actions : List Action)
    (h : EachStep step (fun w a => ServerFresh w a ∧ MindsInUse w a) (World.start size) actions) :
    Along step NothingTaken (World.start size) actions := by
  have hsafe : Along step Safe (World.start size) actions :=
    along_of_eachStep (I := fun _ => True) (fun _ _ _ _ _ => trivial)
      (fun _ _ _ _ hsafe hok hstep => safe_step hsafe hok.1 hok.2 hstep) trivial (safe_start size) h
  exact hsafe.mono fun _ hw => hw.nothingTaken

end

/-- The second execute of a text parses a copy while the first cursor is held; the third, after both were given back,
uses the cached cursor again, and the copy is closed with it. -/
def copiedRun : List Action :=
  [.execute { sql := "select 1" } (.ok 1 true false .returned),
    .execute { sql := "select 1" } (.ok 2 true false .returned),
    .release 2, .release 1, .execute { sql := "select 1" } (.ok 1 true false .returned)]

theorem nothingTaken_copiedRun :
    (exec step (World.start 1) copiedRun).map World.held = some [1] ∧
      Along step NothingTaken (World.start 1) copiedRun :=
  ⟨by decide, nothingTaken_of_mindsInUse 1 copiedRun (by decide)⟩

/-- A held cursor is executed again by an execute of the same text without caching. -/
def reexecutedRun : List Action :=
  [.execute { sql := "q" } (.ok 1 true false .returned),
    .execute { sql := "q", options := { cacheStatement := false } } (.ok 1 true false .returned)]

/-- A held cursor is closed by an execute of the same text without caching that has another bind shape. -/
def reshapedRun : List Action :=
  [.execute { sql := "q" } (.ok 1 true false .returned),
    .execute { sql := "q", options := { cacheStatement := false }, bindShape := [⟨1, 1, false⟩] }
      (.ok 2 true false .returned)]

/-- A held cursor is pushed out of a full cache by another statement and closed with the one after it. -/
def evictedRun : List Action :=
  [.execute { sql := "a" } (.ok 1 true false .returned), .execute { sql := "b" } (.ok 2 true false .returned),
    .execute { sql := "c" } (.ok 3 true false .returned)]

/-- Without a cache, the cursor of a query is queued as soon as it is returned. -/
def noCacheRun : List Action :=
  [.execute { sql := "a" } (.ok 1 true false .returned), .execute { sql := "b" } (.ok 2 true false .returned)]

theorem nothingTaken_fails :
    (EachStep step ServerFresh (World.start 50) reexecutedRun ∧
      ¬Along step NothingTaken (World.start 50) reexecutedRun) ∧
    (EachStep step ServerFresh (World.start 50) reshapedRun ∧ ¬Along step NothingTaken (World.start 50) reshapedRun) ∧
    (EachStep step ServerFresh (World.start 1) evictedRun ∧ ¬Along step NothingTaken (World.start 1) evictedRun) ∧
    (EachStep step ServerFresh (World.start 0) noCacheRun ∧ ¬Along step NothingTaken (World.start 0) noCacheRun) := by
  decide

end OracleThin.Cursor
