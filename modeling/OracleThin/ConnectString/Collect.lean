import OracleThin.ConnectString.Print

/-!
# Nodes and their lines

The parser only builds nodes whose keys are different, with a value under each of them, and with addresses or address
lists but not both. Such a node is collected again from its lines. With clean values it is printed and read back.
-/

namespace OracleThin.ConnectString

open Lib

/-! ### Keys of a node -/

def keys (map : ArgMap) : List Text := map.map Prod.fst

variable {map : ArgMap} {key : Text} {value : ArgValue} {P : Text → ArgValue → Prop}

private theorem get_isSome : (map.get key).isSome = true ↔ key ∈ keys map := by
  simp [ArgMap.get, keys]

private theorem get_isNone (h : key ∉ keys map) : (map.get key).isNone = true := by
  rwa [← Option.not_isSome, Bool.not_eq_true', Bool.eq_false_iff, ne_eq, get_isSome]

theorem mem_of_get {values : List ArgValue} (h : map.get key = some values) : (key, values) ∈ map := by
  rw [ArgMap.get, Option.map_eq_some_iff] at h
  obtain ⟨entry, hfind, rfl⟩ := h
  have hkey : entry.1 = key := by simpa using List.find?_some hfind
  have hmem := List.mem_of_find?_eq_some hfind
  rwa [← hkey]

private theorem not_mem_keys_remove (h : (keys map).Nodup) : key ∉ keys (map.remove key) := by
  induction map with
  | nil => simp [ArgMap.remove, keys]
  | cons entry map ih =>
    rw [keys, List.map_cons, List.nodup_cons] at h
    by_cases hkey : entry.1 = key
    · rw [ArgMap.remove, List.eraseP_cons_of_pos (by simpa using hkey), ← hkey]
      exact h.1
    · rw [ArgMap.remove, List.eraseP_cons_of_neg (by simpa using hkey), keys, List.map_cons, List.mem_cons, not_or]
      exact ⟨Ne.symm hkey, ih h.2⟩

private theorem push_of_not_mem (h : key ∉ keys map) (value : ArgValue) :
    map.push key value = map ++ [(key, [value])] := by
  induction map with
  | nil => rfl
  | cons entry map ih =>
    rw [keys, List.map_cons, List.mem_cons, not_or] at h
    rw [ArgMap.push, if_neg (Ne.symm h.1), ih h.2]
    rfl

private theorem push_append {rest : ArgMap} (h : key ∉ keys map) (value : ArgValue) :
    ArgMap.push (map ++ rest) key value = map ++ rest.push key value := by
  induction map with
  | nil => rfl
  | cons entry map ih =>
    rw [keys, List.map_cons, List.mem_cons, not_or] at h
    rw [List.cons_append, ArgMap.push, if_neg (Ne.symm h.1), ih h.2]
    rfl

private theorem keys_push (map : ArgMap) (key : Text) (value : ArgValue) :
    keys (map.push key value) = if key ∈ keys map then keys map else keys map ++ [key] := by
  induction map with
  | nil => rfl
  | cons entry map ih =>
    obtain ⟨k, values⟩ := entry
    by_cases hk : k = key
    · subst hk
      simp [ArgMap.push, keys]
    · have htail : keys ((k, values) :: map) = k :: keys map := rfl
      rw [ArgMap.push, if_neg hk, htail]
      show k :: keys (ArgMap.push map key value) = _
      rw [ih]
      by_cases hmem : key ∈ keys map
      · rw [if_pos hmem, if_pos (List.mem_cons_of_mem _ hmem)]
      · rw [if_neg hmem, if_neg (by simp [hmem, Ne.symm hk])]
        rfl

theorem get_push_other {other : Text} (h : other ≠ key) (value : ArgValue) :
    (map.push key value).get other = map.get other := by
  induction map with
  | nil => simp [ArgMap.push, ArgMap.get, Ne.symm h]
  | cons entry map ih =>
    obtain ⟨k, values⟩ := entry
    by_cases hk : k = key
    · subst hk
      simp [ArgMap.push, ArgMap.get, Ne.symm h]
    · by_cases hother : k = other
      · subst hother
        simp [ArgMap.push, ArgMap.get, hk]
      · simpa [ArgMap.push, ArgMap.get, hk, hother] using ih

theorem get_append_of_not_mem {rest : ArgMap} (h : key ∉ keys rest) : ArgMap.get (map ++ rest) key = map.get key := by
  have hnone : rest.find? (fun entry => entry.1 = key) = none := by
    rw [List.find?_eq_none]
    intro entry hentry hkey
    exact h (List.mem_map.2 ⟨entry, hentry, by simpa using hkey⟩)
  rw [ArgMap.get, List.find?_append, hnone, Option.or_none]
  rfl

/-! ### Collected nodes -/

/-- The keys are different, each has a value, and there are not both addresses and address lists. -/
structure Collected (map : ArgMap) : Prop where
  nodup : (keys map).Nodup
  values : ∀ entry ∈ map, entry.2 ≠ []
  apart : ¬ ("address".toList ∈ keys map ∧ "address_list".toList ∈ keys map)

theorem setDescriptorArg_eq_push {name : Text} (value : ArgValue)
    (haddress : ¬ (name = "address".toList ∧ "address_list".toList ∈ keys map))
    (hlist : ¬ (name = "address_list".toList ∧ "address".toList ∈ keys map)) :
    setDescriptorArg map name value = map.push name value := by
  unfold setDescriptorArg
  split
  · rw [if_neg, if_neg]
    · rw [get_isSome]
      exact hlist
    · rw [get_isSome]
      exact haddress
  · rfl

private theorem mem_push {entry : Text × List ArgValue} (h : entry ∈ map.push key value) :
    entry ∈ map ∨ entry.1 = key ∧ ∃ values, entry.2 = values ++ [value] ∧
      (values = [] ∨ (key, values) ∈ map) := by
  induction map with
  | nil =>
    rw [ArgMap.push, List.mem_singleton] at h
    subst h
    exact Or.inr ⟨rfl, [], rfl, Or.inl rfl⟩
  | cons first map ih =>
    obtain ⟨k, values⟩ := first
    rw [ArgMap.push] at h
    split at h
    · rename_i hk
      subst hk
      rcases List.mem_cons.1 h with rfl | hmem
      · exact Or.inr ⟨rfl, values, rfl, Or.inr (List.mem_cons_self ..)⟩
      · exact Or.inl (List.mem_cons_of_mem _ hmem)
    · rcases List.mem_cons.1 h with rfl | hmem
      · exact Or.inl (List.mem_cons_self ..)
      · rcases ih hmem with hold | ⟨hkey, more, hvalues, hmore⟩
        · exact Or.inl (List.mem_cons_of_mem _ hold)
        · exact Or.inr ⟨hkey, more, hvalues, hmore.imp_right (List.mem_cons_of_mem _)⟩

/-- What holds of the entries of a node and of a new value holds after the value is set. -/
private theorem forall_push (hmap : ∀ entry ∈ map, ∀ v ∈ entry.2, P entry.1 v) (hvalue : P key value) :
    ∀ entry ∈ map.push key value, ∀ v ∈ entry.2, P entry.1 v := by
  intro entry hentry v hv
  rcases mem_push hentry with hold | ⟨hkey, values, hvalues, hmem⟩
  · exact hmap entry hold v hv
  · rw [hvalues, List.mem_append, List.mem_singleton] at hv
    rw [hkey]
    rcases hv with hv | rfl
    · rcases hmem with rfl | hmem
      · cases hv
      · exact hmap (key, values) hmem v hv
    · exact hvalue

/-- A node after a push, but for what it says of addresses. -/
private theorem collected_push (hnodup : (keys map).Nodup) (hvalues : ∀ entry ∈ map, entry.2 ≠ []) (key : Text)
    (value : ArgValue) : (keys (map.push key value)).Nodup ∧ ∀ entry ∈ map.push key value, entry.2 ≠ [] := by
  refine ⟨?_, ?_⟩
  · rw [keys_push]
    split
    · exact hnodup
    · rename_i hkey
      rw [List.nodup_append]
      refine ⟨hnodup, by simp, ?_⟩
      intro a ha b hb
      rw [List.mem_singleton] at hb
      rintro rfl
      exact hkey (hb ▸ ha)
  · intro entry hentry
    rcases mem_push hentry with hold | ⟨-, values, heq, -⟩
    · exact hvalues entry hold
    · rw [heq]
      simp

/-- The addresses of a node, each in a list of its own. -/
private theorem foldl_wrap
    (hwrap : ∀ value, P "address".toList value → P "address_list".toList (addressWrapper value))
    {addresses : List ArgValue} (hnodup : (keys map).Nodup) (hvalues : ∀ entry ∈ map, entry.2 ≠ [])
    (haddress : "address".toList ∉ keys map) (hmap : ∀ entry ∈ map, ∀ v ∈ entry.2, P entry.1 v)
    (hP : ∀ value ∈ addresses, P "address".toList value) :
    let wrapped := addresses.foldl (fun args address => args.push "address_list".toList (addressWrapper address)) map
    (keys wrapped).Nodup ∧ (∀ entry ∈ wrapped, entry.2 ≠ []) ∧ "address".toList ∉ keys wrapped ∧
      ∀ entry ∈ wrapped, ∀ v ∈ entry.2, P entry.1 v := by
  induction addresses generalizing map with
  | nil => exact ⟨hnodup, hvalues, haddress, hmap⟩
  | cons value addresses ih =>
    obtain ⟨hnodup', hvalues'⟩ := collected_push hnodup hvalues "address_list".toList (addressWrapper value)
    refine ih hnodup' hvalues' ?_ ?_ fun v hv => hP v (List.mem_cons_of_mem _ hv)
    · rw [keys_push]
      split
      · exact haddress
      · rw [List.mem_append, List.mem_singleton]
        exact fun hmem => hmem.elim haddress (by decide)
    · exact forall_push hmap (hwrap value (hP value (List.mem_cons_self ..)))

/-- Setting a value keeps a node collected, and keeps what holds of all values if it passes to an address in a
list. -/
theorem setDescriptorArg_keeps
    (hwrap : ∀ value, P "address".toList value → P "address_list".toList (addressWrapper value)) {name : Text}
    (h : Collected map) (hmap : ∀ entry ∈ map, ∀ v ∈ entry.2, P entry.1 v) (hvalue : P name value) :
    Collected (setDescriptorArg map name value) ∧
      ∀ entry ∈ setDescriptorArg map name value, ∀ v ∈ entry.2, P entry.1 v := by
  by_cases haddress : name = "address".toList ∧ "address_list".toList ∈ keys map
  · obtain ⟨rfl, hlist⟩ := haddress
    have hnone : "address".toList ∉ keys map := fun hmem => h.apart ⟨hmem, hlist⟩
    have hset :
        setDescriptorArg map "address".toList value = map.push "address_list".toList (addressWrapper value) := by
      rw [setDescriptorArg, if_pos (get_isNone hnone), if_pos ⟨rfl, get_isSome.2 hlist⟩]
    have hkeys : keys (map.push "address_list".toList (addressWrapper value)) = keys map := by
      rw [keys_push, if_pos hlist]
    obtain ⟨hnodup, hvalues⟩ := collected_push h.nodup h.values "address_list".toList (addressWrapper value)
    rw [hset]
    exact ⟨⟨hnodup, hvalues, by rw [hkeys]; exact h.apart⟩, forall_push hmap (hwrap value hvalue)⟩
  · by_cases hlist : name = "address_list".toList ∧ "address".toList ∈ keys map
    · obtain ⟨rfl, hmem⟩ := hlist
      have hnone : "address_list".toList ∉ keys map := fun hlist => h.apart ⟨hmem, hlist⟩
      obtain ⟨addresses, hget⟩ := Option.isSome_iff_exists.1 (get_isSome.2 hmem)
      have hset : setDescriptorArg map "address_list".toList value =
          (addresses.foldl (fun args address => args.push "address_list".toList (addressWrapper address))
            (map.remove "address".toList)).push "address_list".toList value := by
        rw [setDescriptorArg, if_pos (get_isNone hnone), if_neg (fun hname => absurd hname.1 (by decide)),
          if_pos ⟨rfl, get_isSome.2 hmem⟩, hget]
        rfl
      have hsub : (map.remove "address".toList).Sublist map := List.eraseP_sublist
      obtain ⟨hnodup, hvalues, hgone, hP⟩ := foldl_wrap hwrap (h.nodup.sublist (hsub.map _))
        (fun entry hentry => h.values entry (hsub.subset hentry)) (not_mem_keys_remove h.nodup)
        (fun entry hentry => hmap entry (hsub.subset hentry))
        (fun v hv => hmap ("address".toList, addresses) (mem_of_get hget) v hv)
      rw [hset]
      obtain ⟨hnodup', hvalues'⟩ := collected_push hnodup hvalues "address_list".toList value
      refine ⟨⟨hnodup', hvalues', ?_⟩, forall_push hP hvalue⟩
      rw [keys_push]
      rintro ⟨haddr, -⟩
      split at haddr
      · exact hgone haddr
      · rcases List.mem_append.1 haddr with haddr | haddr
        · exact hgone haddr
        · exact absurd (List.mem_singleton.1 haddr) (by decide)
    · rw [setDescriptorArg_eq_push value haddress hlist]
      obtain ⟨hnodup, hvalues⟩ := collected_push h.nodup h.values name value
      refine ⟨⟨hnodup, hvalues, ?_⟩, forall_push hmap hvalue⟩
      rw [keys_push]
      split
      · exact h.apart
      · -- The new key is at most one of the two.
        rintro ⟨haddr, haddrs⟩
        rw [List.mem_append, List.mem_singleton] at haddr haddrs
        rcases haddr with haddr | haddr <;> rcases haddrs with haddrs | haddrs
        · exact h.apart ⟨haddr, haddrs⟩
        · exact hlist ⟨haddrs.symm, haddr⟩
        · exact haddress ⟨haddr.symm, haddrs⟩
        · exact absurd (haddr.trans haddrs.symm) (by decide)

/-- The lines of a node. -/
def linesOf (map : ArgMap) : List Line :=
  map.flatMap fun entry => entry.2.map fun value => ⟨toAsciiUppercase entry.1, entry.1, valueRepr value, some value⟩

/-- More values under the last key. -/
private theorem foldl_setPair_values {done : ArgMap} (hkey : key ∉ keys done)
    (hapart : ¬ ("address".toList ∈ keys done ++ [key] ∧ "address_list".toList ∈ keys done ++ [key]))
    (values more : List ArgValue) (hne : values ≠ []) :
    (more.map fun value => (key, some value)).foldl setPair (done ++ [(key, values)]) =
      done ++ [(key, values ++ more)] := by
  induction more generalizing values with
  | nil => simp
  | cons value more ih =>
    have hkeys : keys (done ++ [(key, values)]) = keys done ++ [key] := by simp [keys]
    have hset : setPair (done ++ [(key, values)]) (key, some value) = done ++ [(key, values ++ [value])] := by
      show setDescriptorArg _ key value = _
      rw [setDescriptorArg_eq_push, push_append hkey]
      · simp [ArgMap.push]
      · rintro ⟨rfl, hmem⟩
        rw [hkeys] at hmem
        exact hapart ⟨by simp, hmem⟩
      · rintro ⟨rfl, hmem⟩
        rw [hkeys] at hmem
        exact hapart ⟨hmem, by simp⟩
    rw [List.map_cons, List.foldl_cons, hset, ih _ (by simp), List.append_assoc, List.singleton_append]

/-- A node is collected from its lines. -/
theorem foldl_setPair_linesOf {done : ArgMap} (h : Collected (done ++ map)) :
    ((linesOf map).map Line.pair).foldl setPair done = done ++ map := by
  induction map generalizing done with
  | nil => simp [linesOf]
  | cons entry map ih =>
    obtain ⟨key, values⟩ := entry
    have hassoc : done ++ (key, values) :: map = (done ++ [(key, values)]) ++ map := by simp
    obtain ⟨value, more, rfl⟩ : ∃ value more, values = value :: more :=
      List.exists_cons_of_ne_nil (h.values (key, values) (by simp))
    have hkeys : keys (done ++ (key, value :: more) :: map) = keys done ++ key :: keys map := by simp [keys]
    have hkey : key ∉ keys done := by
      intro hmem
      have hnodup := h.nodup
      rw [hkeys, List.nodup_append] at hnodup
      exact hnodup.2.2 key hmem key (by simp) rfl
    have hapart : ¬ ("address".toList ∈ keys done ++ [key] ∧ "address_list".toList ∈ keys done ++ [key]) := by
      have hsub : ∀ k ∈ keys done ++ [key], k ∈ keys (done ++ (key, value :: more) :: map) := by
        intro k hk
        rw [hkeys]
        rcases List.mem_append.1 hk with hk | hk
        · exact List.mem_append_left _ hk
        · exact List.mem_append_right _ (List.mem_cons.2 (Or.inl (List.mem_singleton.1 hk)))
      exact fun hboth => h.apart ⟨hsub _ hboth.1, hsub _ hboth.2⟩
    have hfirst : setPair done (key, some value) = done ++ [(key, [value])] := by
      show setDescriptorArg done key value = _
      rw [setDescriptorArg_eq_push, push_of_not_mem hkey]
      · rintro ⟨rfl, hmem⟩
        exact hapart ⟨List.mem_append_right _ (List.mem_singleton_self _), List.mem_append_left _ hmem⟩
      · rintro ⟨rfl, hmem⟩
        exact hapart ⟨List.mem_append_left _ hmem, List.mem_append_right _ (List.mem_singleton_self _)⟩
    have hlines : (linesOf ((key, value :: more) :: map)).map Line.pair =
        (key, some value) :: ((more.map fun value => (key, some value)) ++ (linesOf map).map Line.pair) := by
      simp [linesOf, Line.pair, Function.comp_def]
    rw [hassoc] at h ⊢
    rw [hlines, List.foldl_cons, List.foldl_append, hfirst, foldl_setPair_values hkey hapart [value] more (by simp)]
    exact ih h

private theorem linesOf_ne_nil (h : Collected map) (hne : map ≠ []) : linesOf map ≠ [] := by
  obtain ⟨entry, rest, rfl⟩ := List.exists_cons_of_ne_nil hne
  obtain ⟨value, more, hvalues⟩ := List.exists_cons_of_ne_nil (h.values entry (by simp))
  simp [linesOf, hvalues]

theorem collectLines_linesOf (h : Collected map) (hne : map ≠ []) : collectLines none (linesOf map) = some map := by
  rw [collectLines, if_neg (linesOf_ne_nil h hne)]
  exact congrArg some (foldl_setPair_linesOf h)

private theorem linesText_values (key : Text) (values : List ArgValue) :
    linesText (values.map fun value => ⟨toAsciiUppercase key, key, valueRepr value, some value⟩) =
      valuesRepr key values := by
  induction values with
  | nil => rfl
  | cons value values ih =>
    rw [valuesRepr, ← ih]
    simp [linesText, Line.text, pairText]

/-- The lines of a node are the text that it is printed as. -/
theorem linesText_linesOf (map : ArgMap) : linesText (linesOf map) = entriesRepr map := by
  induction map with
  | nil => rfl
  | cons entry map ih =>
    rw [entriesRepr, ← ih, ← linesText_values]
    simp [linesText, linesOf]

end OracleThin.ConnectString
