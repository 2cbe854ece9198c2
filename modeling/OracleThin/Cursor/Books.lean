import OracleThin.Cursor.Cache

/-!
# The books of a connection

Cached, copied and queued cursors are kept apart. Every text and every cursor is cached once, the cache stays within
its capacity, and no cursor is queued twice. Only the paths through `closeCursor` look for a cursor before they queue
it; the others rely on the ids of the server, which are new unless they belong to the executed cursor.
-/

namespace OracleThin.Cursor

open Lib

def cursorIds (cache : List CachedStatement) : List Nat := cache.map CachedStatement.cursorId

/-! ### The choice of a cursor -/

/-- The execute leaves the choice of its cursor to the cache. -/
def Execute.LeavesChoice (e : Execute) : Prop := e.options.cursorId = 0 ∧ e.options.parseOnly = false

/-- The ways in which an execute chooses its cursor. -/
inductive Chooses (c : Connection) (e : Execute) : Nat × Bool × Connection → Prop
  | own (hown : ¬e.LeavesChoice) : Chooses c e (e.options.cursorId, false, c)
  | copy (hleaves : e.LeavesChoice) (hinUse : c.statementIsInUse e.sql = true) : Chooses c e (0, true, c)
  | parse (hleaves : e.LeavesChoice) (hfind : c.statementCache.find? (·.sql == e.sql) = none) :
      Chooses c e (0, false, c)
  | reuse (hleaves : e.LeavesChoice) (hcache : e.useCache = true) (hfree : c.statementIsInUse e.sql = false)
      (hfind : c.statementCache.find? (·.sql == e.sql) = some entry)
      (hshape : bindShapeIsCompatible entry.bindShape e.bindShape = true) :
      Chooses c e (entry.cursorId, false,
        { c with statementCache := c.statementCache.eraseP (·.sql == e.sql) ++ [entry] })
  | take (hleaves : e.LeavesChoice) (hcache : e.useCache = false)
      (hfind : c.statementCache.find? (·.sql == e.sql) = some entry)
      (hshape : bindShapeIsCompatible entry.bindShape e.bindShape = true) :
      Chooses c e (entry.cursorId, false, { c with statementCache := c.statementCache.eraseP (·.sql == e.sql) })
  | reshape (hleaves : e.LeavesChoice) (hfree : e.useCache = true → c.statementIsInUse e.sql = false)
      (hfind : c.statementCache.find? (·.sql == e.sql) = some entry) :
      Chooses c e (0, false, c.statementCacheInvalidate e.sql entry.cursorId)

section

variable {c : Connection} {e : Execute} {entry : CachedStatement} {cache : List CachedStatement} {sql : String}

theorem statementIsInUse_eq_false (hfind : c.statementCache.find? (·.sql == sql) = some entry)
    (h : c.statementIsInUse sql = false) : entry.cursorId = 0 ∨ entry.cursorId ∉ c.inUseCursors := by
  rw [Connection.statementIsInUse, hfind] at h
  simpa [imp_iff_not_or] using h

theorem chooses (c : Connection) (e : Execute) : Chooses c e (chooseCursor c e) := by
  unfold chooseCursor
  split
  · rename_i hleaves
    split
    · rename_i hcache
      split
      · exact .copy hleaves ‹_›
      · rename_i hfree
        have hfree : c.statementIsInUse e.sql = false := by simpa using hfree
        rw [Connection.statementCacheGet]
        cases hfind : c.statementCache.find? (·.sql == e.sql) with
        | none => exact .parse hleaves hfind
        | some entry =>
          have hidle : ¬(entry.cursorId ≠ 0 ∧ entry.cursorId ∈ c.inUseCursors) := by
            have := statementIsInUse_eq_false hfind hfree
            tauto
          simp only [if_neg hidle]
          split
          · exact .reuse hleaves hcache hfree hfind ‹_›
          · exact .reshape hleaves (fun _ => hfree) hfind
    · rename_i hcache
      rw [Connection.statementCacheTake]
      cases hfind : c.statementCache.find? (·.sql == e.sql) with
      | none => exact .parse hleaves hfind
      | some entry =>
        dsimp only
        split
        · exact .take hleaves (by simpa using hcache) hfind ‹_›
        · exact .reshape hleaves (fun hc => absurd hc hcache) hfind
  · exact .own ‹_›

theorem perm_eraseP_append (hfind : cache.find? (·.sql == sql) = some entry) :
    (cache.eraseP (·.sql == sql) ++ [entry]).Perm cache := by
  obtain ⟨hsql, before, after, rfl, hbefore⟩ := List.find?_eq_some_iff_append.1 hfind
  rw [List.eraseP_append_right _ fun b hb => by simpa using hbefore b hb, List.append_assoc]
  refine List.Perm.append_left before ?_
  rw [List.eraseP_cons_of_pos (p := fun e : CachedStatement => e.sql == sql) hsql]
  exact List.perm_append_comm

theorem sql_not_mem_eraseP (h : (cache.map CachedStatement.sql).Nodup) :
    sql ∉ (cache.eraseP (·.sql == sql)).map CachedStatement.sql := by
  induction cache with
  | nil => exact List.not_mem_nil
  | cons first cache ih =>
    rw [List.map_cons, List.nodup_cons] at h
    by_cases hsql : first.sql = sql
    · rw [List.eraseP_cons_of_pos (by simpa using hsql), ← hsql]
      exact h.1
    · rw [List.eraseP_cons_of_neg (by simpa using hsql), List.map_cons, List.mem_cons, not_or]
      exact ⟨fun heq => hsql heq.symm, ih h.2⟩

theorem id_not_mem_eraseP (hsqls : (cache.map CachedStatement.sql).Nodup) (hids : (cursorIds cache).Nodup)
    (hentry : entry ∈ cache) (hsql : entry.sql = sql) :
    entry.cursorId ∉ cursorIds (cache.eraseP (·.sql == sql)) := by
  intro hmem
  obtain ⟨other, hother, hid⟩ := List.mem_map.1 hmem
  obtain rfl := List.inj_on_of_nodup_map hids (List.mem_of_mem_eraseP hother) hentry hid
  exact sql_not_mem_eraseP hsqls (hsql ▸ List.mem_map_of_mem hother)

end

/-! ### The books -/

/-- Cached, copied and queued cursors are apart; the cached and the copied ones are open, so a new id of the server is
none of them. -/
structure Books (cache : List CachedStatement) (copied queue opened : List Nat) : Prop where
  sqls_nodup : (cache.map CachedStatement.sql).Nodup
  ids_nodup : (cursorIds cache).Nodup
  ids_ne_zero : 0 ∉ cursorIds cache
  queue_nodup : queue.Nodup
  cached_opened : ∀ id ∈ cursorIds cache, id ∈ opened
  copied_opened : ∀ id ∈ copied, id ∈ opened
  cached_not_queued : ∀ id ∈ cursorIds cache, id ∉ queue
  copied_not_queued : ∀ id ∈ copied, id ∉ queue
  copied_not_cached : ∀ id ∈ copied, id ∉ cursorIds cache

structure ConnBooks (c : Connection) (opened : List Nat) : Prop
    extends Books c.statementCache c.copiedCursors c.cursorsToClose opened where
  length_le : c.statementCache.length ≤ c.statementCacheSize

section

variable {cache cache' : List CachedStatement} {copied copied' queue opened : List Nat} {id : Nat} {c : Connection}
  {e : Execute} {sql : String} {entry : CachedStatement}

theorem mem_without {x : Nat} {ids : List Nat} : x ∈ without id ids ↔ x ∈ ids ∧ x ≠ id := by
  simp [without]

section

variable (h : Books cache copied queue opened)

include h

theorem Books.restrict (hcache : cache'.Subperm cache)
    (hcopied : ∀ x ∈ copied', x ∈ copied) : Books cache' copied' queue opened := by
  obtain ⟨kept, hperm, hkept⟩ := hcache
  have hids : ∀ x ∈ cursorIds cache', x ∈ cursorIds cache := fun x hx =>
    (hkept.map _).subset ((hperm.map _).mem_iff.2 hx)
  exact {
    sqls_nodup := (hperm.map _).nodup_iff.1 (h.sqls_nodup.sublist (hkept.map _))
    ids_nodup := (hperm.map _).nodup_iff.1 (h.ids_nodup.sublist (hkept.map _))
    ids_ne_zero := fun hm => h.ids_ne_zero (hids 0 hm)
    queue_nodup := h.queue_nodup
    cached_opened := fun x hx => h.cached_opened x (hids x hx)
    copied_opened := fun x hx => h.copied_opened x (hcopied x hx)
    cached_not_queued := fun x hx => h.cached_not_queued x (hids x hx)
    copied_not_queued := fun x hx => h.copied_not_queued x (hcopied x hx)
    copied_not_cached := fun x hx hc => h.copied_not_cached x (hcopied x hx) (hids x hc) }

theorem Books.enqueue {ids : List Nat} (hids : ids.Nodup)
    (hnew : ∀ x ∈ ids, x ∉ queue ∧ x ∉ cursorIds cache ∧ x ∉ copied) : Books cache copied (queue ++ ids) opened :=
  { h with
    queue_nodup := List.Nodup.append h.queue_nodup hids fun x hq hx => (hnew x hx).1 hq
    cached_not_queued := fun x hx hq =>
      (List.mem_append.1 hq).elim (h.cached_not_queued x hx) fun hm => (hnew x hm).2.1 hx
    copied_not_queued := fun x hx hq =>
      (List.mem_append.1 hq).elim (h.copied_not_queued x hx) fun hm => (hnew x hm).2.2 hx }

theorem Books.open (id : Nat) : Books cache copied queue (id :: opened) :=
  { h with
    cached_opened := fun x hx => List.mem_cons_of_mem _ (h.cached_opened x hx)
    copied_opened := fun x hx => List.mem_cons_of_mem _ (h.copied_opened x hx) }

theorem Books.flush : Books cache copied [] (opened.filter (· ∉ queue)) :=
  { h with
    queue_nodup := List.nodup_nil
    cached_opened := fun x hx => by simpa using ⟨h.cached_opened x hx, h.cached_not_queued x hx⟩
    copied_opened := fun x hx => by simpa using ⟨h.copied_opened x hx, h.copied_not_queued x hx⟩
    cached_not_queued := fun _ _ => List.not_mem_nil
    copied_not_queued := fun _ _ => List.not_mem_nil }

end

theorem Books.copy (h : Books cache copied [] opened) (hid : id ∉ opened) :
    Books cache (copied.insert id) [] (id :: opened) :=
  { h.open id with
    copied_opened := fun x hx => (List.mem_insert_iff.1 hx).elim (fun he => he ▸ List.mem_cons_self ..)
      fun hx => List.mem_cons_of_mem _ (h.copied_opened x hx)
    copied_not_queued := fun _ _ => List.not_mem_nil
    copied_not_cached := fun x hx hc => (List.mem_insert_iff.1 hx).elim
      (fun he => hid (he ▸ h.cached_opened x hc)) fun hx => h.copied_not_cached x hx hc }

/-- An open cursor that is nowhere can be cached under a text that is not. -/
theorem Books.push (h : Books cache copied queue opened) (entry : CachedStatement) (hzero : entry.cursorId ≠ 0)
    (hid : entry.cursorId ∉ cursorIds cache ∧ entry.cursorId ∉ copied ∧ entry.cursorId ∉ queue)
    (hopened : entry.cursorId ∈ opened) (hsql : entry.sql ∉ cache.map CachedStatement.sql) :
    Books (cache ++ [entry]) copied queue opened := by
  have hids : ∀ {x : Nat}, x ∈ cursorIds (cache ++ [entry]) → x ∈ cursorIds cache ∨ x = entry.cursorId := by
    intro x hx
    simpa [cursorIds] using hx
  exact { h with
    sqls_nodup := by
      rw [List.map_append]
      exact List.Nodup.append h.sqls_nodup (by simp) (by simpa using hsql)
    ids_nodup := by
      rw [cursorIds, List.map_append]
      exact List.Nodup.append h.ids_nodup (by simp) (by simpa [cursorIds] using hid.1)
    ids_ne_zero := fun hm => (hids hm).elim h.ids_ne_zero fun he => hzero he.symm
    cached_opened := fun x hx => (hids hx).elim (h.cached_opened x) fun he => he ▸ hopened
    cached_not_queued := fun x hx => (hids hx).elim (h.cached_not_queued x) fun he => he ▸ hid.2.2
    copied_not_cached := fun x hx hc => (hids hc).elim (h.copied_not_cached x hx) fun he => hid.2.1 (he ▸ hx) }

/-! ### Closing and releasing -/

section

variable (h : ConnBooks c opened)

include h

theorem ConnBooks.closeCursor (id : Nat) : ConnBooks (c.closeCursor id) opened := by
  unfold Connection.closeCursor
  split
  · exact h
  · have hrest : Books (c.statementCache.filter (·.cursorId ≠ id))
      (without id c.copiedCursors) c.cursorsToClose opened :=
      h.restrict List.filter_sublist.subperm fun x hx => (mem_without.1 hx).1
    refine ⟨?_, Nat.le_trans (List.length_filter_le _ _) h.length_le⟩
    split
    · exact hrest
    · rename_i hqueue
      refine hrest.enqueue (List.nodup_singleton id) fun x hx => ?_
      obtain rfl := List.mem_singleton.1 hx
      exact ⟨hqueue, by simp [cursorIds], by simp [without]⟩

theorem ConnBooks.release (id : Nat) : ConnBooks (c.releaseCursor id) opened := by
  unfold Connection.releaseCursor
  split
  · exact h
  · split
    · rename_i hcopied
      refine ⟨?_, h.length_le⟩
      have hrest : Books c.statementCache (without id c.copiedCursors) c.cursorsToClose opened :=
        h.restrict (List.Subperm.refl _) fun x hx => (mem_without.1 hx).1
      refine hrest.enqueue (List.nodup_singleton id) fun x hx => ?_
      obtain rfl := List.mem_singleton.1 hx
      exact ⟨h.copied_not_queued x hcopied, h.copied_not_cached x hcopied, by simp [without]⟩
    · exact ⟨h.toBooks, h.length_le⟩

theorem ConnBooks.sublist (hcache : cache'.Sublist c.statementCache) :
    ConnBooks { c with statementCache := cache' } opened :=
  ⟨h.restrict hcache.subperm fun _ hx => hx, Nat.le_trans hcache.length_le h.length_le⟩

theorem ConnBooks.invalidate (sql : String) (id : Nat) :
    ConnBooks (c.statementCacheInvalidate sql id) opened :=
  ConnBooks.closeCursor (h.sublist List.eraseP_sublist) id

theorem ConnBooks.choose {choice : Nat × Bool × Connection} (hchooses : Chooses c e choice) :
    ConnBooks choice.2.2 opened := by
  cases hchooses with
  | own | copy | parse => exact h
  | @reuse entry _ _ _ hfind =>
    have hperm : (c.statementCache.eraseP (·.sql == e.sql) ++ [entry]).Perm c.statementCache :=
      perm_eraseP_append hfind
    exact ⟨h.restrict hperm.subperm fun _ hx => hx, Nat.le_trans (Nat.le_of_eq hperm.length_eq) h.length_le⟩
  | take => exact h.sublist List.eraseP_sublist
  | reshape => exact h.invalidate _ _

end

/-! ### Recording a result -/

/-- The cache keeps its newest entries; the cursors of the others are closed. -/
theorem evict_eq (capacity : Nat) (cache : List CachedStatement) :
    evict capacity cache = (cache.drop (cache.length - capacity),
      (cursorIds (cache.take (cache.length - capacity))).filter (· ≠ 0)) := by
  induction cache with
  | nil => simp [evict, cursorIds]
  | cons entry cache ih =>
    rw [evict]
    split
    · have hsucc : (entry :: cache).length - capacity = cache.length - capacity + 1 := by
        rw [List.length_cons]
        omega
      rw [hsucc, ih, List.drop_succ_cons, List.take_succ_cons]
      by_cases hzero : entry.cursorId = 0 <;> simp [cursorIds, hzero]
    · have hzero : (entry :: cache).length - capacity = 0 := by
        rw [List.length_cons]
        omega
      rw [hzero]
      simp [cursorIds]

/-- The entry of the new cursor goes last, the replaced and the pushed out cursors are queued. -/
theorem statementCachePut_eq (c : Connection) (sql : String) (bindShape : List BindShapeSlot) (hid : id ≠ 0) :
    ∃ entry replaced, entry.sql = sql ∧ entry.cursorId = id ∧
      (replaced = [] ∨
        ∃ old, c.statementCache.find? (·.sql == sql) = some old ∧ old.cursorId ≠ id ∧ replaced = [old.cursorId]) ∧
      let all := c.statementCache.eraseP (·.sql == sql) ++ [entry]
      c.statementCachePut sql id bindShape =
        { c.statementCachePut sql id bindShape with
          statementCache := all.drop (all.length - c.statementCacheSize)
          statementCacheSize := c.statementCacheSize
          inUseCursors := c.inUseCursors
          copiedCursors := c.copiedCursors
          cursorsToClose := c.cursorsToClose ++
            (replaced ++ (cursorIds (all.take (all.length - c.statementCacheSize))).filter (· ≠ 0)) } := by
  unfold Connection.statementCachePut statementCacheInsert
  cases hfind : c.statementCache.find? (·.sql == sql) with
  | none => exact ⟨⟨sql, id, bindShape⟩, [], rfl, rfl, Or.inl rfl, by simp [hid, evict_eq]⟩
  | some old =>
    refine ⟨⟨sql, id, (replaceStatement old id bindShape).1⟩, (replaceStatement old id bindShape).2, rfl, rfl, ?_,
      by simp [hid, evict_eq]⟩
    unfold replaceStatement
    split
    · rename_i hne
      exact Or.inr ⟨old, rfl, hne.2, rfl⟩
    · split <;> exact Or.inl rfl

/-- A cached execute records its cursor: the executed one, whose entry it replaces, or a new one. -/
theorem ConnBooks.put (h : ConnBooks c opened) (hqueue : c.cursorsToClose = []) (hid : id ≠ 0)
    (hnames : (∃ entry ∈ c.statementCache, entry.sql = sql ∧ entry.cursorId = id) ∨ id ∉ opened)
    (bindShape : List BindShapeSlot) : ConnBooks (c.statementCachePut sql id bindShape) (id :: opened) := by
  obtain ⟨entry, replaced, hsql, hcursor, hreplaced, hput⟩ := statementCachePut_eq c sql bindShape hid
  have hsame : ∀ old ∈ c.statementCache, old.sql = sql →
      old.cursorId ∉ cursorIds (c.statementCache.eraseP (·.sql == sql)) ∧ old.cursorId ∉ c.copiedCursors :=
    fun old hold holdsql => ⟨id_not_mem_eraseP h.sqls_nodup h.ids_nodup hold holdsql,
      fun hm => h.copied_not_cached _ hm (List.mem_map_of_mem hold)⟩
  have hnew : id ∉ cursorIds (c.statementCache.eraseP (·.sql == sql)) ∧ id ∉ c.copiedCursors := by
    rcases hnames with ⟨old, hold, holdsql, rfl⟩ | hfresh
    · exact hsame old hold holdsql
    · refine ⟨fun hm => hfresh (h.cached_opened id ?_), fun hm => hfresh (h.copied_opened id hm)⟩
      exact (List.eraseP_sublist.map CachedStatement.cursorId).subset hm
  have hrest : Books (c.statementCache.eraseP (·.sql == sql)) c.copiedCursors replaced (id :: opened) := by
    have hothers := (h.restrict (List.eraseP_sublist (p := (·.sql == sql))).subperm fun _ hx => hx).open id
    rw [hqueue] at hothers
    rcases hreplaced with rfl | ⟨old, hfind, -, rfl⟩
    · exact hothers
    · refine hothers.enqueue (List.nodup_singleton _) fun x hx => ?_
      obtain rfl := List.mem_singleton.1 hx
      exact ⟨List.not_mem_nil, hsame old (List.mem_of_find?_eq_some hfind) (by simpa using List.find?_some hfind)⟩
  have hnotReplaced : id ∉ replaced := by
    rcases hreplaced with rfl | ⟨old, -, hne, rfl⟩
    · exact List.not_mem_nil
    · exact fun hm => hne (List.mem_singleton.1 hm).symm
  have hall := hrest.push entry (hcursor ▸ hid) (hcursor ▸ ⟨hnew.1, hnew.2, hnotReplaced⟩)
    (hcursor ▸ List.mem_cons_self ..) (hsql ▸ sql_not_mem_eraseP h.sqls_nodup)
  rw [hput]
  generalize c.statementCache.eraseP (·.sql == sql) ++ [entry] = all at hall ⊢
  refine ⟨?_, ?_⟩
  · rw [hqueue, List.nil_append]
    have hnodup := hall.ids_nodup
    rw [← List.take_append_drop (all.length - c.statementCacheSize) all, cursorIds, List.map_append] at hnodup
    refine (hall.restrict (List.drop_sublist _ _).subperm fun _ hx => hx).enqueue
      ((hall.ids_nodup.sublist ((List.take_sublist _ _).map _)).filter _) fun x hx => ?_
    have hx := List.mem_of_mem_filter hx
    have hcached := ((List.take_sublist _ _).map _).subset hx
    exact ⟨hall.cached_not_queued x hcached, fun hkept => List.disjoint_of_nodup_append hnodup hx hkept,
      fun hcopied => hall.copied_not_cached x hcopied hcached⟩
  · dsimp only
    rw [List.length_drop]
    omega

end

section

variable {w : World} {e : Execute} {s : Started} {c : Connection} {opened : List Nat} {id : Nat}

/-- Apart from the metadata of cursors, a successful execute records its cursor, marks the cursor of a query as in use
and drops the entries of bound cursors. -/
theorem recordResult_eq (c : Connection) (e : Execute) (isCopy : Bool) (id : Nat) (described lobPrefetch : Bool) :
    ∃ columns lobs,
      recordResult c e isCopy id described lobPrefetch =
        { recordCursor c e isCopy id with
          statementCache := (recordCursor c e isCopy id).statementCache.filter fun entry =>
            entry.cursorId = 0 ∨ entry.cursorId ∉ e.boundCursors
          inUseCursors := if id ≠ 0 ∧ e.isQuery ∧ e.options.parseOnly = false then
              (recordCursor c e isCopy id).inUseCursors.insert id
            else (recordCursor c e isCopy id).inUseCursors
          cursorColumns := columns
          lobPrefetchCursors := lobs } := by
  have hlobs : ∀ l, ∃ lobs, recordCursor { c with lobPrefetchCursors := l } e isCopy id =
      { recordCursor c e isCopy id with lobPrefetchCursors := lobs } := by
    intro l
    unfold recordCursor
    split
    · split <;> exact ⟨_, rfl⟩
    · split <;> exact ⟨_, rfl⟩
  have hprefetch : ∃ lobs, recordCursor
      (if id ≠ 0 ∧ lobPrefetch then
        { c with lobPrefetchCursors := c.lobPrefetchCursors.insert id } else c) e isCopy id =
      { recordCursor c e isCopy id with lobPrefetchCursors := lobs } := by
    split
    · exact hlobs _
    · exact ⟨_, rfl⟩
  obtain ⟨lobs, hprefetch⟩ := hprefetch
  unfold recordResult
  simp only [hprefetch, Connection.invalidateBoundRefCursors]
  split <;> split <;> exact ⟨_, _, rfl⟩

/-- What an execute has done to the books before its round trip. -/
structure StartBooks (opened : List Nat) (e : Execute) (s : Started) : Prop where
  books : ConnBooks s.conn (opened.filter (· ∉ s.listed))
  queue : s.conn.cursorsToClose = []
  copy : s.isCopy = true → s.cursorId = 0
  /-- A cached execute has its own cursor in the cache. -/
  cached : e.useCache = true → e.options.cursorId = 0 → s.cursorId ≠ 0 →
    ∃ entry ∈ s.conn.statementCache, entry.sql = e.sql ∧ entry.cursorId = s.cursorId

theorem startBooks (h : ConnBooks c opened) (e : Execute) : StartBooks opened e (startExecute c e) := by
  have hchooses := chooses c e
  have hbooks := h.choose hchooses
  unfold startExecute
  generalize chooseCursor c e = choice at hchooses hbooks ⊢
  refine ⟨⟨hbooks.flush, hbooks.length_le⟩, rfl, ?_, ?_⟩
  · cases hchooses with
    | copy => exact fun _ => rfl
    | own | parse | reuse | take | reshape => exact nofun
  · intro hcache hnone hid
    cases hchooses with
    | own => exact absurd hnone hid
    | copy | parse | reshape => exact absurd rfl hid
    | @reuse entry _ _ _ hfind =>
      exact ⟨entry, by simp [Connection.takeCloseCursorsPiggyback], by simpa using List.find?_some hfind, rfl⟩
    | take _ hcache' => rw [hcache] at hcache'; cases hcache'

theorem StartBooks.put (h : StartBooks opened e s) (hcache : e.useCache = true) (hnone : e.options.cursorId = 0)
    (hid : id ≠ 0) (hnames : id = s.cursorId ∨ id ∉ opened.filter (· ∉ s.listed)) :
    ConnBooks (s.conn.statementCachePut e.sql id e.bindShape) (id :: opened.filter (· ∉ s.listed)) := by
  refine h.books.put h.queue hid (hnames.imp_left fun heq => ?_) _
  rw [heq] at hid ⊢
  exact h.cached hcache hnone hid

theorem StartBooks.recordResult (h : StartBooks opened e s) (hown : e.useCache = true → e.options.cursorId = 0)
    (hnames : id = 0 ∨ id = s.cursorId ∨ id ∉ opened.filter (· ∉ s.listed)) (described lobPrefetch : Bool) :
    ConnBooks (recordResult s.conn e s.isCopy id described lobPrefetch) (id :: opened.filter (· ∉ s.listed)) := by
  have hopen : ConnBooks s.conn (id :: opened.filter (· ∉ s.listed)) := ⟨h.books.open id, h.books.length_le⟩
  have hrecord : ConnBooks (recordCursor s.conn e s.isCopy id) (id :: opened.filter (· ∉ s.listed)) := by
    unfold recordCursor
    by_cases hid : id = 0
    · subst hid
      split
      · exact hopen
      · split
        · simpa [Connection.statementCachePut, statementCacheInsert] using hopen
        · exact hopen
    have hnames := hnames.resolve_left hid
    split
    · rename_i hcopy
      have hfresh := hnames.resolve_left fun heq => hid (heq.trans (h.copy hcopy))
      have hbooks := h.books.toBooks
      rw [h.queue] at hbooks
      refine ⟨?_, h.books.length_le⟩
      dsimp only
      rw [h.queue]
      exact hbooks.copy hfresh
    · split
      · rename_i hcache
        exact h.put hcache (hown hcache) hid hnames
      · exact hopen
  obtain ⟨columns, lobs, hresult⟩ := recordResult_eq s.conn e s.isCopy id described lobPrefetch
  have hkept : ((recordCursor s.conn e s.isCopy id).statementCache.filter fun entry =>
      entry.cursorId = 0 ∨ entry.cursorId ∉ e.boundCursors).Sublist _ := List.filter_sublist
  rw [hresult]
  exact ⟨(hrecord.sublist hkept).toBooks, (hrecord.sublist hkept).length_le⟩

/-- The cursor of an execute is chosen by the cache, or the execute does not record it there. -/
def OwnUncached : Action → Prop
  | .execute e _ => e.useCache = true → e.options.cursorId = 0
  | _ => True

theorem connBooks_step {w' : World} {a : Action} (h : ConnBooks w.conn w.opened) (hfresh : ServerFresh w a)
    (hown : OwnUncached a) (hs : step w a = some w') : ConnBooks w'.conn w'.opened := by
  have hopen : ∀ {c : Connection} {opened : List Nat} (id : Nat), ConnBooks c opened → ConnBooks c (id :: opened) :=
    fun id h => ⟨h.open id, h.length_le⟩
  cases a with
  | execute e outcome =>
    obtain rfl := Option.some.inj hs
    have hstart := startBooks h e
    dsimp only [ServerFresh] at hfresh
    cases outcome with
    | ok id described lobPrefetch delivery =>
      have hrecord := hstart.recordResult hown hfresh described lobPrefetch
      dsimp only [finishExecute, openedAfter]
      split
      · exact hrecord.closeCursor id
      · exact hrecord
    | serverError id =>
      have hclosed := (hopen id hstart.books).closeCursor id
      dsimp only [finishExecute, openedAfter]
      split
      · exact hclosed.invalidate _ _
      · exact hclosed
    | otherError =>
      dsimp only [finishExecute, openedAfter]
      split
      · exact hstart.books.invalidate _ _
      · exact hstart.books
    | lost => exact hstart.books
  | scroll cursorId outcome =>
    obtain rfl := Option.some.inj hs
    have hflush : ConnBooks w.conn.takeCloseCursorsPiggyback.2 (w.opened.filter (· ∉ w.conn.cursorsToClose)) :=
      ⟨h.flush, h.length_le⟩
    cases outcome with
    | ok id described lobPrefetch delivery =>
      have hopened := hopen id hflush
      dsimp only [scrollConn, openedAfter]
      split
      · exact ⟨hopened.toBooks, hopened.length_le⟩
      · exact hopened
    | serverError id => exact (hopen id hflush).closeCursor id
    | otherError | lost => exact hflush
  | release cursorId =>
    obtain rfl := Option.some.inj hs
    exact h.release cursorId
  | close cursorId =>
    obtain rfl := Option.some.inj hs
    exact h.closeCursor cursorId

theorem connBooks_start (size : Nat) : ConnBooks (World.start size).conn [] :=
  ⟨⟨List.nodup_nil, List.nodup_nil, List.not_mem_nil, List.nodup_nil, nofun, nofun, nofun, nofun, nofun⟩,
    Nat.zero_le _⟩

end

/-! ### The property -/

/-- The cursors of executes are chosen by the cache. -/
def ChosenByCache : Action → Prop
  | .execute e _ => e.options.cursorId = 0
  | _ => True

instance : DecidablePred ChosenByCache
  | .execute e _ => inferInstanceAs (Decidable (e.options.cursorId = 0))
  | .scroll .. | .release _ | .close _ => instDecidableTrue

/-- Every text and every cursor is cached once, the cache stays within its capacity, no cursor is both cached and
queued, and none is queued twice. -/
structure Consistent (w : World) : Prop where
  sqls_nodup : (w.conn.statementCache.map CachedStatement.sql).Nodup
  ids_nodup : (cursorIds w.conn.statementCache).Nodup
  ids_ne_zero : ∀ id ∈ cursorIds w.conn.statementCache, id ≠ 0
  length_le : w.conn.statementCache.length ≤ w.conn.statementCacheSize
  apart : ∀ id ∈ cursorIds w.conn.statementCache, id ∉ w.conn.cursorsToClose
  queue_nodup : w.conn.cursorsToClose.Nodup

/-- The books are consistent after every step of a run in which the cache chooses the cursors and the server returns
no id that is still open. -/
theorem books_consistent (size : Nat) (actions : List Action)
    (h : EachStep step (fun w a => ServerFresh w a ∧ ChosenByCache a) (World.start size) actions) :
    Along step Consistent (World.start size) actions := by
  have hbooks : Along step (fun w => ConnBooks w.conn w.opened) (World.start size) actions := by
    refine along_of_eachStep (I := fun _ => True) (fun _ _ _ _ _ => trivial) (fun w a w' _ hw hok hs => ?_) trivial
      (connBooks_start size) h
    refine connBooks_step hw hok.1 ?_ hs
    cases a with
    | execute e outcome => exact fun _ => hok.2
    | scroll | release | close => trivial
  exact hbooks.mono fun w hw => ⟨hw.sqls_nodup, hw.ids_nodup, fun id hid hzero => hw.ids_ne_zero (hzero ▸ hid),
    hw.length_le, hw.cached_not_queued, hw.queue_nodup⟩

/-- A copy that is released, an entry that is pushed out by another text, and a bind shape that drops a cached
cursor. -/
def crowdedRun : List Action :=
  [.execute { sql := "a" } (.ok 1 true false .returned), .execute { sql := "a" } (.ok 2 true false .returned),
    .release 2, .release 1, .execute { sql := "b" } (.ok 3 true false .returned), .release 3,
    .execute { sql := "b", bindShape := [⟨1, 1, false⟩] } (.ok 4 true false .returned)]

theorem books_consistent_crowdedRun :
    (exec step (World.start 1) crowdedRun).map (fun w => cursorIds w.conn.statementCache) = some [4] ∧
      Along step Consistent (World.start 1) crowdedRun :=
  ⟨by decide, books_consistent 1 crowdedRun (by decide)⟩

end OracleThin.Cursor
