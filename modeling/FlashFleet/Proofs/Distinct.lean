import FlashFleet.Toml.Document
/-!
# No key twice

A table takes a key only if it does not have it, and a table that was closed is not opened
again. So whatever is read from a text, in no table of the document does a key stand twice,
however deep the table lies and however it came to be: under a header, in an array of
tables, along a path, or between braces. What a key stands for is therefore a question with
one answer, and the order of the keys does not matter to it.

## Main results

* `within_spec` — what a change at the end of a path does to the document.
* `Draft.Distinct.start`, `Draft.Distinct.add` — each line keeps the keys distinct.
* `distinct_of_parse` — no table of a document has a key twice.
-/

namespace FlashFleet.Toml

/-! ## Looking up keys -/

/-- The keys of a table, in order. -/
def keys (entries : Entries) : List String := entries.map Prod.fst

theorem lookup_eq_none_iff {key : String} {entries : Entries} :
    lookup key entries = none ↔ key ∉ keys entries := by
  induction entries with
  | nil => simp [lookup, keys]
  | cons head rest ih =>
    obtain ⟨other, node⟩ := head
    by_cases heq : other = key
    · simp [lookup, keys, heq]
    · simpa [lookup, keys, heq, Ne.symm heq] using ih

theorem mem_of_lookup {key : String} {node : Node} {entries : Entries}
    (h : lookup key entries = some node) : (key, node) ∈ entries := by
  induction entries with
  | nil => cases h
  | cons head rest ih =>
    obtain ⟨other, old⟩ := head
    rw [lookup] at h
    split at h
    · next heq =>
      rw [heq, Option.some.inj h]
      exact List.mem_cons_self
    · exact List.mem_cons_of_mem _ (ih h)

/-- Where no key stands twice each is found with what it stands for. -/
theorem lookup_of_mem {key : String} {node : Node} {entries : Entries}
    (hnodup : (keys entries).Nodup) (h : (key, node) ∈ entries) :
    lookup key entries = some node := by
  induction entries with
  | nil => cases h
  | cons head rest ih =>
    obtain ⟨other, old⟩ := head
    obtain ⟨hfresh, hrest⟩ := List.nodup_cons.1 hnodup
    rcases List.mem_cons.1 h with heq | h
    · cases heq
      simp [lookup]
    · have hne : other ≠ key := by
        rintro rfl
        exact hfresh (List.mem_map.2 ⟨_, h, rfl⟩)
      rw [lookup, if_neg hne]
      exact ih hrest h

/-- Where no key stands twice the order of the keys does not matter. -/
theorem lookup_of_perm {a b : Entries} (hperm : a.Perm b) (hnodup : (keys b).Nodup)
    (key : String) : lookup key a = lookup key b := by
  have hkeys : (keys a).Perm (keys b) := hperm.map Prod.fst
  cases hlookup : lookup key b with
  | none =>
    rw [lookup_eq_none_iff, hkeys.mem_iff]
    exact lookup_eq_none_iff.1 hlookup
  | some node =>
    exact lookup_of_mem (hkeys.nodup_iff.2 hnodup) (hperm.mem_iff.2 (mem_of_lookup hlookup))

theorem lookup_append (key : String) (a b : Entries) :
    lookup key (a ++ b) = (lookup key a).or (lookup key b) := by
  induction a with
  | nil => rfl
  | cons head rest ih =>
    obtain ⟨other, node⟩ := head
    rw [List.cons_append, lookup, lookup]
    split
    · rfl
    · exact ih

/-- A new key is found behind the others. -/
theorem lookup_snoc {key : String} {entries : Entries} (h : lookup key entries = none)
    (node : Node) : lookup key (entries ++ [(key, node)]) = some node := by
  simp [lookup_append, h, lookup]

theorem keys_replace (key : String) (node : Node) (entries : Entries) :
    keys (replace key node entries) = keys entries := by
  induction entries with
  | nil => rfl
  | cons head rest ih =>
    obtain ⟨other, old⟩ := head
    rw [replace]
    split
    · rfl
    · exact congrArg (other :: ·) ih

theorem mem_replace {key : String} {node : Node} {entries : Entries} {entry : String × Node}
    (h : entry ∈ replace key node entries) : entry = (key, node) ∨ entry ∈ entries := by
  induction entries with
  | nil => cases h
  | cons head rest ih =>
    obtain ⟨other, old⟩ := head
    rw [replace] at h
    split at h
    · next heq =>
      subst heq
      exact (List.mem_cons.1 h).imp_right (List.mem_cons_of_mem _)
    · rcases List.mem_cons.1 h with rfl | h
      · exact .inr List.mem_cons_self
      · exact (ih h).imp_right (List.mem_cons_of_mem _)

/-- A key that was there stands for the new meaning. -/
theorem lookup_replace {key : String} {old : Node} {entries : Entries}
    (h : lookup key entries = some old) (node : Node) :
    lookup key (replace key node entries) = some node := by
  induction entries with
  | nil => cases h
  | cons head rest ih =>
    obtain ⟨other, before⟩ := head
    rw [lookup] at h
    rw [replace]
    split at h
    · next heq => simp [heq, lookup]
    · next hne =>
      rw [if_neg hne, lookup, if_neg hne]
      exact ih h

theorem erase_sublist (key : String) (entries : Entries) :
    (erase key entries).Sublist entries := by
  induction entries with
  | nil => exact .slnil
  | cons head rest ih =>
    obtain ⟨other, old⟩ := head
    rw [erase]
    split
    · exact List.sublist_cons_self _ _
    · exact ih.cons_cons _

/-- A key that stands once is gone when it is taken away. -/
theorem lookup_erase {key : String} {entries : Entries} (hnodup : (keys entries).Nodup) :
    lookup key (erase key entries) = none := by
  induction entries with
  | nil => rfl
  | cons head rest ih =>
    obtain ⟨other, old⟩ := head
    obtain ⟨hfresh, hnodup⟩ := List.nodup_cons.1 hnodup
    rw [erase]
    split
    · next heq =>
      rw [← heq]
      exact lookup_eq_none_iff.2 hfresh
    · next hne =>
      rw [lookup, if_neg hne]
      exact ih hnodup

/-! ## Distinct keys -/

/-- In no table of the part of a document does a key stand twice. -/
inductive Node.Distinct : Node → Prop where
  | text (content : String) : Distinct (.text content)
  | integer (value : Int) : Distinct (.integer value)
  | float (value : Number.Binary64) : Distinct (.float value)
  | boolean (value : Bool) : Distinct (.boolean value)
  | moment : Distinct .moment
  | array {items : List Node} (hitems : ∀ item ∈ items, Distinct item) : Distinct (.array items)
  | table {origin : Origin} {entries : Entries} (hkeys : (keys entries).Nodup)
      (hnodes : ∀ entry ∈ entries, Distinct entry.2) : Distinct (.table origin entries)
  | tables {items : List Entries} (hkeys : ∀ entries ∈ items, (keys entries).Nodup)
      (hnodes : ∀ entries ∈ items, ∀ entry ∈ entries, Distinct entry.2) :
      Distinct (.tables items)

/-- Neither in the table nor in any below it does a key stand twice. -/
structure Entries.Distinct (entries : Entries) : Prop where
  keys : (Toml.keys entries).Nodup
  nodes : ∀ entry ∈ entries, entry.2.Distinct

theorem Node.Distinct.entries {origin : Origin} {entries : Entries}
    (h : Node.Distinct (.table origin entries)) : entries.Distinct := by
  cases h with
  | table hkeys hnodes => exact ⟨hkeys, hnodes⟩

theorem Node.Distinct.of_tables {items : List Entries} (h : Node.Distinct (.tables items)) :
    ∀ entries ∈ items, entries.Distinct := by
  cases h with
  | tables hkeys hnodes => exact fun entries hmem => ⟨hkeys entries hmem, hnodes entries hmem⟩

theorem Node.Distinct.tables_of {items : List Entries} (h : ∀ entries ∈ items, entries.Distinct) :
    Node.Distinct (.tables items) :=
  .tables (fun entries hmem => (h entries hmem).keys) fun entries hmem => (h entries hmem).nodes

namespace Entries.Distinct

variable {entries : Entries} {key : String} {node : Node}

theorem nil : Entries.Distinct [] := ⟨List.nodup_nil, List.forall_mem_nil _⟩

theorem table (h : entries.Distinct) (origin : Origin) : Node.Distinct (.table origin entries) :=
  .table h.keys h.nodes

theorem lookup (h : entries.Distinct) (hfound : Toml.lookup key entries = some node) :
    node.Distinct :=
  h.nodes _ (mem_of_lookup hfound)

theorem snoc (h : entries.Distinct) (hnew : Toml.lookup key entries = none)
    (hnode : node.Distinct) : Entries.Distinct (entries ++ [(key, node)]) := by
  constructor
  · have hfresh := lookup_eq_none_iff.1 hnew
    have hkeys : Toml.keys (entries ++ [(key, node)]) = Toml.keys entries ++ [key] :=
      List.map_append
    rw [hkeys, List.nodup_append]
    refine ⟨h.keys, by simp, ?_⟩
    rintro other hother _ hlast rfl
    rw [List.mem_singleton.1 hlast] at hother
    exact hfresh hother
  · exact List.forall_mem_append.2 ⟨h.nodes, List.forall_mem_singleton.2 hnode⟩

theorem replace (h : entries.Distinct) (hnode : node.Distinct) :
    Entries.Distinct (Toml.replace key node entries) := by
  constructor
  · rw [keys_replace]
    exact h.keys
  · intro entry hentry
    rcases mem_replace hentry with rfl | hold
    · exact hnode
    · exact h.nodes entry hold

theorem erase (h : entries.Distinct) (key : String) :
    Entries.Distinct (Toml.erase key entries) where
  keys := h.keys.sublist ((erase_sublist key entries).map Prod.fst)
  nodes := fun entry hentry => h.nodes entry ((erase_sublist key entries).subset hentry)

/-- So it is in every table that can be reached. -/
theorem reach (h : entries.Distinct) {path : List String} {found : Entries}
    (hreach : Toml.reach path entries = some found) : found.Distinct := by
  induction path generalizing entries with
  | nil =>
    rw [← Option.some.inj hreach]
    exact h
  | cons key path ih =>
    rw [Toml.reach] at hreach
    split at hreach
    · next hlookup => exact ih (h.lookup hlookup).entries hreach
    · next items hlookup =>
      split at hreach
      · next child hlast =>
        exact ih ((h.lookup hlookup).of_tables child (List.mem_of_getLast? hlast)) hreach
      · cases hreach
    · cases hreach

end Entries.Distinct

/-! ## Changes at the end of a path -/

/-- In a table without keys nothing but the table itself is reached. -/
theorem reach_nil {path : List String} {found : Entries} (h : reach path [] = some found) :
    found = [] := by
  cases path with
  | nil => exact (Option.some.inj h).symm
  | cons key path => cases h

/-- A change at the end of a path changes the table that was reached along it, or a new one,
and is reached along it. It keeps the keys of the document distinct if it keeps those of
that table distinct. -/
theorem within_spec {dotted : Bool} {path : List String}
    {edit : Origin → Entries → Option Entries} {origin : Origin} {entries result : Entries}
    (hentries : entries.Distinct) (h : within dotted path edit origin entries = some result) :
    ∃ place before after, Entries.Distinct before ∧
      (before = [] ∨ reach path entries = some before) ∧
      edit place before = some after ∧ reach path result = some after ∧
      (Entries.Distinct after → result.Distinct) := by
  induction path generalizing origin entries result with
  | nil => exact ⟨origin, entries, result, hentries, .inr rfl, h, rfl, id⟩
  | cons key path ih =>
    rw [within] at h
    split at h
    · next hnew =>
      obtain ⟨child, hchild, rfl⟩ := Option.map_eq_some_iff.1 h
      obtain ⟨place, before, after, hbefore, hfound, hedit, hafter, hkept⟩ := ih .nil hchild
      refine ⟨place, before, after, hbefore, .inl ?_, hedit, ?_, fun hdistinct => ?_⟩
      · exact hfound.elim id reach_nil
      · rw [reach, lookup_snoc hnew]
        exact hafter
      · exact hentries.snoc hnew ((hkept hdistinct).table _)
    · next owner old hold =>
      split at h
      · obtain ⟨child, hchild, rfl⟩ := Option.map_eq_some_iff.1 h
        obtain ⟨place, before, after, hbefore, hfound, hedit, hafter, hkept⟩ :=
          ih (hentries.lookup hold).entries hchild
        refine ⟨place, before, after, hbefore, hfound.imp_right fun hreach => ?_, hedit, ?_,
          fun hdistinct => ?_⟩
        · rw [reach, hold]
          exact hreach
        · rw [reach, lookup_replace hold]
          exact hafter
        · exact hentries.replace ((hkept hdistinct).table _)
      · cases h
    · next items hold =>
      have hitems := (hentries.lookup hold).of_tables
      split at h
      · cases h
      · next last hlast =>
        obtain ⟨child, hchild, rfl⟩ := Option.map_eq_some_iff.1 h
        obtain ⟨place, before, after, hbefore, hfound, hedit, hafter, hkept⟩ :=
          ih (hitems last (List.mem_of_getLast? hlast)) hchild
        refine ⟨place, before, after, hbefore, hfound.imp_right fun hreach => ?_, hedit, ?_,
          fun hdistinct => ?_⟩
        · simp only [reach, hold, hlast]
          exact hreach
        · simp only [reach, lookup_replace hold, List.getLast?_concat]
          exact hafter
        · refine hentries.replace (.tables_of ?_)
          intro table htable
          rcases List.mem_append.1 htable with hearlier | hmine
          · exact hitems table (List.dropLast_subset _ hearlier)
          · rw [List.mem_singleton.1 hmine]
            exact hkept hdistinct
    · cases h

/-- A value that is put into a table keeps the keys distinct. -/
theorem distinct_of_put {origin : Origin} {entries result : Entries} {path : List String}
    {key : String} {node : Node} (hentries : entries.Distinct) (hnode : node.Distinct)
    (h : put origin entries path key node = some result) : result.Distinct := by
  obtain ⟨place, before, after, hbefore, _, hinsert, _, hkept⟩ := within_spec hentries h
  apply hkept
  rw [insert] at hinsert
  split at hinsert
  · split at hinsert
    · next hnew =>
      rw [← Option.some.inj hinsert]
      exact hbefore.snoc hnew hnode
    · cases hinsert
  · cases hinsert

/-! ## Lines -/

/-- What was read of a document has distinct keys, and the table of the open header is not
among what was closed. -/
structure Draft.Distinct (draft : Draft) : Prop where
  closed : draft.closed.Distinct
  opened : draft.opened.Distinct
  vacant : ∀ path key, draft.header = some ⟨path, key, false⟩ → ∀ entries,
    reach path draft.closed = some entries → lookup key entries = none

namespace Draft.Distinct

variable {draft next : Draft}

/-- The open table is closed without repeating a key. -/
theorem close {result : Entries} (hdraft : draft.Distinct) (h : draft.close = some result) :
    result.Distinct := by
  unfold Draft.close at h
  split at h
  · rw [← Option.some.inj h]
    exact hdraft.opened
  · obtain ⟨place, before, after, hbefore, _, hedit, _, hkept⟩ := within_spec hdraft.closed h
    apply hkept
    split at hedit
    · next hnew =>
      rw [← Option.some.inj hedit]
      exact hbefore.snoc hnew (.tables_of (List.forall_mem_singleton.2 hdraft.opened))
    · next items hitems =>
      rw [← Option.some.inj hedit]
      refine hbefore.replace (.tables_of ?_)
      exact List.forall_mem_append.2
        ⟨(hbefore.lookup hitems).of_tables, List.forall_mem_singleton.2 hdraft.opened⟩
    · cases hedit
  · next path key hheader =>
    obtain ⟨place, before, after, hbefore, hfound, hedit, _, hkept⟩ :=
      within_spec hdraft.closed h
    apply hkept
    have hnew : lookup key before = none := by
      rcases hfound with rfl | hreach
      · rfl
      · exact hdraft.vacant path key hheader before hreach
    rw [← Option.some.inj hedit]
    exact hbefore.snoc hnew (hdraft.opened.table _)

/-- What a header goes on with has distinct keys. -/
private theorem heldAt {key : String} {entries held : Entries} (hentries : entries.Distinct)
    (h : Toml.heldAt key entries = some held) : held.Distinct := by
  unfold Toml.heldAt at h
  split at h
  · rw [← Option.some.inj h]
    exact .nil
  · next hlookup =>
    rw [← Option.some.inj h]
    exact (hentries.lookup hlookup).entries
  · cases h

/-- A header keeps the keys distinct. -/
theorem start {header : Header} (hdraft : draft.Distinct) (h : draft.start header = some next) :
    next.Distinct := by
  obtain ⟨closed, hclose, h⟩ := Option.bind_eq_some_iff.1 h
  have hclosed := hdraft.close hclose
  obtain ⟨path, key, repeated⟩ := header
  cases repeated with
  | true =>
    obtain ⟨result, hwithin, h⟩ := Option.bind_eq_some_iff.1 h
    rw [← Option.some.inj h]
    obtain ⟨place, before, after, hbefore, _, hedit, _, hkept⟩ := within_spec hclosed hwithin
    refine ⟨hkept ?_, .nil, nofun⟩
    split at hedit
    · next hnew =>
      rw [← Option.some.inj hedit]
      exact hbefore.snoc hnew (.tables_of (List.forall_mem_nil _))
    · rw [← Option.some.inj hedit]
      exact hbefore
    · cases hedit
  | false =>
    obtain ⟨held, hheld, h⟩ := Option.bind_eq_some_iff.1 h
    obtain ⟨result, hwithin, h⟩ := Option.bind_eq_some_iff.1 h
    rw [← Option.some.inj h]
    obtain ⟨place, before, after, hbefore, _, hedit, hafter, hkept⟩ := within_spec hclosed hwithin
    have herased : erase key before = after := Option.some.inj hedit
    subst herased
    refine ⟨hkept (hbefore.erase key), ?_, ?_⟩
    · refine heldAt ?_ hheld
      cases hreach : reach path closed with
      | none => exact .nil
      | some found => exact hclosed.reach hreach
    · intro otherPath otherKey hheader entries hentries
      cases hheader
      rw [hafter] at hentries
      rw [← Option.some.inj hentries]
      exact lookup_erase hbefore.keys

/-- A key with a value keeps the keys distinct. -/
theorem add {path : List String} {key : String} {node : Node} (hdraft : draft.Distinct)
    (hnode : node.Distinct) (h : draft.add path key node = some next) : next.Distinct := by
  obtain ⟨opened, hput, rfl⟩ := Option.map_eq_some_iff.1 h
  exact ⟨hdraft.closed, distinct_of_put hdraft.opened hnode hput, hdraft.vacant⟩

end Draft.Distinct

/-! ## Values -/

/-- What the reader gives has distinct keys. -/
def ReadsDistinct (read : Reader) : Prop :=
  ∀ text node rest, read text = some (node, rest) → node.Distinct

/-- A table between braces takes each key once. -/
theorem distinct_of_ofPairs {pairs : List (List String × String × Node)} {entries result : Entries}
    (hpairs : ∀ pair ∈ pairs, pair.2.2.Distinct) (hentries : entries.Distinct)
    (h : ofPairs pairs entries = some result) : result.Distinct := by
  induction pairs generalizing entries with
  | nil =>
    rw [← Option.some.inj h]
    exact hentries
  | cons pair rest ih =>
    obtain ⟨hpair, hrest⟩ := List.forall_mem_cons.1 hpairs
    rw [ofPairs] at h
    split at h
    · cases h
    · next hput => exact ih hrest (distinct_of_put hentries hpair hput) h

section Containers

variable {read : Reader} (hread : ReadsDistinct read)
include hread

theorem distinct_of_items? {text rest : List Char} {items : List Node}
    (h : items? read text = some (items, rest)) : ∀ item ∈ items, item.Distinct := by
  fun_induction items? read text generalizing items rest with
  | case2 text more hstart =>
    cases h
    exact List.forall_mem_nil _
  | case4 text start hopen hstart node more hnode last hclosed =>
    cases h
    exact List.forall_mem_singleton.2 (hread _ _ _ hnode)
  | case5 text start hopen hstart node more hnode next hgoes hlength ih =>
    obtain ⟨later, hlater, heq⟩ := Option.map_eq_some_iff.1 h
    cases heq
    exact List.forall_mem_cons.2 ⟨hread _ _ _ hnode, ih hlater⟩
  | case1 => cases h
  | case3 => cases h
  | case6 => cases h
  | case7 => cases h

theorem distinct_of_pair? {text rest : List Char} {path : List String} {key : String} {node : Node}
    (h : pair? read text = some ((path, key, node), rest)) : node.Distinct := by
  obtain ⟨_, _, h⟩ := Option.bind_eq_some_iff.1 h
  obtain ⟨_, _, h⟩ := Option.bind_eq_some_iff.1 h
  obtain ⟨_, hnode, h⟩ := Option.bind_eq_some_iff.1 h
  cases h
  exact hread _ _ _ hnode

theorem distinct_of_pairs? {text rest : List Char} {pairs : List (List String × String × Node)}
    (h : pairs? read text = some (pairs, rest)) : ∀ pair ∈ pairs, pair.2.2.Distinct := by
  fun_induction pairs? read text generalizing pairs rest with
  | case2 text pair more hpair last hclosed =>
    cases h
    exact List.forall_mem_singleton.2 (distinct_of_pair? hread hpair)
  | case3 text pair more hpair next hgoes hlength ih =>
    obtain ⟨later, hlater, heq⟩ := Option.map_eq_some_iff.1 h
    cases heq
    exact List.forall_mem_cons.2 ⟨distinct_of_pair? hread hpair, ih hlater⟩
  | case1 => cases h
  | case4 => cases h
  | case5 => cases h

theorem distinct_of_braces? {text rest : List Char} {node : Node}
    (h : braces? read text = some (node, rest)) : node.Distinct := by
  unfold braces? at h
  split at h
  · cases h
    exact Entries.Distinct.nil.table _
  · obtain ⟨pairs, hpairs, h⟩ := Option.bind_eq_some_iff.1 h
    obtain ⟨entries, hentries, h⟩ := Option.bind_eq_some_iff.1 h
    cases h
    have hdistinct := distinct_of_ofPairs (distinct_of_pairs? hread hpairs) .nil hentries
    exact hdistinct.table _

end Containers

theorem distinct_of_integer? {negative : Bool} {size : Nat} {node : Node}
    (h : integer? negative size = some node) : node.Distinct := by
  rw [integer?, Option.ite_none_right_eq_some] at h
  rw [← Option.some.inj h.2]
  exact .integer _

theorem distinct_of_float? {negative : Bool} {digits : List Char} {power : Int} {node : Node}
    (h : float? negative digits power = some node) : node.Distinct := by
  unfold float? at h
  split at h
  · cases h
  · rw [← Option.some.inj h]
    exact .float _

theorem readsDistinct_decimal? : ReadsDistinct decimal? := by
  intro text node rest h
  unfold decimal? at h
  split at h
  split at h
  · cases h
    exact .float _
  · cases h
    exact .float _
  · obtain ⟨⟨before, more⟩, _, h⟩ := Option.bind_eq_some_iff.1 h
    dsimp only at h
    split at h
    · obtain ⟨⟨after, more⟩, _, h⟩ := Option.bind_eq_some_iff.1 h
      dsimp only at h
      split at h
      all_goals
        obtain ⟨⟨power, more⟩, _, h⟩ := Option.bind_eq_some_iff.1 h
        obtain ⟨found, hfound, h⟩ := Option.bind_eq_some_iff.1 h
        cases h
        exact distinct_of_float? hfound
    · obtain ⟨⟨power, more⟩, _, h⟩ := Option.bind_eq_some_iff.1 h
      obtain ⟨found, hfound, h⟩ := Option.bind_eq_some_iff.1 h
      cases h
      exact distinct_of_float? hfound
    · obtain ⟨⟨power, more⟩, _, h⟩ := Option.bind_eq_some_iff.1 h
      obtain ⟨found, hfound, h⟩ := Option.bind_eq_some_iff.1 h
      cases h
      exact distinct_of_float? hfound
    · obtain ⟨found, hfound, h⟩ := Option.bind_eq_some_iff.1 h
      cases h
      exact distinct_of_integer? hfound

theorem readsDistinct_marked? (radix : Nat) : ReadsDistinct (marked? radix) := by
  intro text node rest h
  obtain ⟨_, _, h⟩ := Option.bind_eq_some_iff.1 h
  obtain ⟨found, hfound, h⟩ := Option.bind_eq_some_iff.1 h
  cases h
  exact distinct_of_integer? hfound

/-- Numbers, dates and times have no keys. -/
theorem readsDistinct_quantity? : ReadsDistinct quantity? := by
  intro text node rest h
  unfold quantity? at h
  split at h
  · cases h
    exact .moment
  · unfold number? at h
    split at h
    · exact readsDistinct_marked? _ _ _ _ h
    · exact readsDistinct_marked? _ _ _ _ h
    · exact readsDistinct_marked? _ _ _ _ h
    · exact readsDistinct_decimal? _ _ _ h

theorem distinct_of_word? {word text rest : List Char} {node found : Node} (hnode : node.Distinct)
    (h : word? word node text = some (found, rest)) : found.Distinct := by
  unfold word? at h
  split at h
  · cases h
    exact hnode
  · cases h

/-- A value has distinct keys, however deep its containers are nested. -/
theorem readsDistinct_value? (depth : Nat) : ReadsDistinct (value? depth) := by
  induction depth using Nat.strongRecOn with
  | ind depth ih =>
    intro text node rest h
    unfold value? at h
    split at h
    · obtain ⟨read, _, heq⟩ := Option.map_eq_some_iff.1 h
      cases heq
      exact .text _
    · obtain ⟨read, _, heq⟩ := Option.map_eq_some_iff.1 h
      cases heq
      exact .text _
    · split at h
      · cases h
      · next depth =>
        obtain ⟨read, hitems, heq⟩ := Option.map_eq_some_iff.1 h
        cases heq
        exact .array (distinct_of_items? (ih depth (Nat.lt_succ_self depth)) hitems)
    · split at h
      · cases h
      · next depth => exact distinct_of_braces? (ih depth (Nat.lt_succ_self depth)) h
    · exact distinct_of_word? (.boolean _) h
    · exact distinct_of_word? (.boolean _) h
    · exact distinct_of_word? (.float _) h
    · exact distinct_of_word? (.float _) h
    · exact readsDistinct_quantity? _ _ _ h

/-! ## Documents -/

/-- Each line keeps the keys distinct. -/
theorem Draft.Distinct.line {draft next : Draft} {text rest : List Char} (hdraft : draft.Distinct)
    (h : line? draft text = some (next, rest)) : next.Distinct := by
  unfold line? at h
  split at h
  · obtain ⟨_, _, heq⟩ := Option.map_eq_some_iff.1 h
    cases heq
    exact hdraft
  · obtain ⟨_, _, h⟩ := Option.bind_eq_some_iff.1 h
    obtain ⟨_, _, h⟩ := Option.bind_eq_some_iff.1 h
    obtain ⟨_, hstart, h⟩ := Option.bind_eq_some_iff.1 h
    cases h
    exact hdraft.start hstart
  · split at h
    · cases h
      exact hdraft
    · obtain ⟨⟨⟨path, key, node⟩, _⟩, hpair, h⟩ := Option.bind_eq_some_iff.1 h
      obtain ⟨_, _, h⟩ := Option.bind_eq_some_iff.1 h
      obtain ⟨_, hadd, h⟩ := Option.bind_eq_some_iff.1 h
      cases h
      exact hdraft.add (distinct_of_pair? (readsDistinct_value? nestingLimit) hpair) hadd

theorem Draft.Distinct.lines {draft last : Draft} {text : List Char} (hdraft : draft.Distinct)
    (h : lines? draft text = some last) : last.Distinct := by
  fun_induction lines? draft text with
  | case1 draft text hend =>
    cases h
    exact hdraft
  | case3 draft text next rest hlength hnonempty hline ih => exact ih (hdraft.line hline) h
  | case2 => cases h
  | case4 => cases h

/-- In no table of a document does a key stand twice. -/
theorem distinct_of_parse {text : String} {document : Entries} (h : parse? text = some document) :
    document.Distinct := by
  unfold parse? at h
  split at h
  · cases h
  · next draft hlines =>
    have hempty : ({} : Draft).Distinct := ⟨.nil, .nil, nofun⟩
    exact (hempty.lines hlines).close h

end FlashFleet.Toml
