import OnceMesh.Integrations.Agreement
import OnceMesh.ListRelations

/-!
# Moving an index from a file into a database

`SQLiteActiveKeyIndex.import_filesystem` reads the file and inserts every entry, in one transaction.
If it returns, the rows of the table are the entries of the file, one for each
(`importFilesystem_eq_ok`).
-/

namespace OnceMesh

open Python

/-- The loop over the entries. -/
def importEntries : List (NativeKey × IndexEntry) → Stateful PyError SqlTable Unit
  | [] => pure ()
  | i :: rest => do
    let ns ← namespaceText i.1.1
    upsert ns i.1.2 i.2.generation i.2.active i.2.publicationId
    importEntries rest

/-- `SELECT count(*) FROM active_keys`. -/
def countRows : Stateful PyError SqlTable ℕ := fun table => (.ok table.size, table)

/-- The operation inside the transaction. -/
def replaceRows (entries : MemoryEntries) (replace : Bool) : Stateful PyError SqlTable ℕ := do
  let destinationCount ← countRows
  raiseIf (destinationCount ≠ 0 && !replace) "SQLite active-key index destination is not empty"
  if replace then
    Stateful.modify fun _ => Dict.empty
  importEntries entries.entries
  pure entries.size

/-- `import_filesystem`, over the source file and the table. -/
def importFilesystem (replace : Bool) : Stateful PyError (File × SqlTable) ℕ :=
  fun (source, table) =>
  match readIndex source with
  | .error e => (.error e, (source, table))
  | .ok entries =>
    let (result, after) := transaction (replaceRows entries replace) table
    (result, (source, after))

/-! ### Rows of entries -/

/-- The row an entry is inserted as. -/
structure RowOf (i : NativeKey × IndexEntry) (row : (Str × Str) × ActiveKeyRow) : Prop where
  ns : namespaceText i.1.1 = .ok row.1.1
  key : row.1.2 = i.1.2
  clean : Clean i.1.2
  row : ∃ h, row.2 = ⟨.integer i.2.generation h, i.2.active, i.2.publicationId⟩

/-- The schema accepts an entry: its texts are valid Unicode and its generation has 64 bits. -/
def Insertable (i : NativeKey × IndexEntry) : Prop :=
  (∀ part ∈ i.1.1, Clean part) ∧ Clean i.1.2 ∧ i.2.generation < 2 ^ 63

theorem exists_rowOf_iff {i : NativeKey × IndexEntry} (h : ItemValid i) :
    (∃ row, RowOf i row) ↔ Insertable i := by
  constructor
  · rintro ⟨row, hrow⟩
    obtain ⟨hlt, -⟩ := hrow.row
    exact ⟨(namespaceText_eq_ok.mp hrow.ns).1.2, hrow.clean, hlt⟩
  · rintro ⟨hns, hkey, hlt⟩
    have htext := namespaceText_eq_ok.mpr ⟨⟨(validateNative_eq_ok.mp h.native).1, hns⟩, rfl⟩
    exact ⟨((_, i.1.2), _), htext, rfl, hkey, hlt, rfl⟩

/-- Entries with one row have one key. -/
theorem RowOf.inj {i j : NativeKey × IndexEntry} {row row' : (Str × Str) × ActiveKeyRow}
    (h : RowOf i row) (h' : RowOf j row') (hkey : row.1 = row'.1) : i.1 = j.1 := by
  apply Prod.ext
  · exact namespaceText_inj h.ns (hkey ▸ h'.ns)
  · exact h.key.symm.trans ((congrArg Prod.snd hkey).trans h'.key)

/-- The rows of entries with different keys have different keys. -/
theorem nodup_rows {items : List (NativeKey × IndexEntry)}
    {rows : List ((Str × Str) × ActiveKeyRow)}
    (h : List.Forall₂ RowOf items rows) (hnodup : (items.map Prod.fst).Nodup) :
    (rows.map Prod.fst).Nodup := by
  induction h with
  | nil => exact List.nodup_nil
  | cons hrow hrows ih =>
    rw [List.map_cons, List.nodup_cons] at hnodup ⊢
    refine ⟨fun hmem => hnodup.1 ?_, ih hnodup.2⟩
    obtain ⟨row', hrow', hkey⟩ := List.mem_map.mp hmem
    obtain ⟨j, hj, hof⟩ := exists_of_forall₂_right hrows hrow'
    exact List.mem_map.mpr ⟨j, hj, hof.inj hrow hkey⟩

/-- The entries with new keys are inserted one after the other, or the loop raises. -/
theorem returns_importEntries {items : List (NativeKey × IndexEntry)}
    (hvalid : ∀ i ∈ items, ItemValid i) (hnodup : (items.map Prod.fst).Nodup) :
    ∀ {table : SqlTable} {post : Unit → SqlTable → Prop},
      (∀ i ∈ items, ∀ row ∈ table.entries, ∀ row', RowOf i row' → row'.1 ≠ row.1) →
      (Stateful.Returns (importEntries items) table post ↔
        ∃ rows after, List.Forall₂ RowOf items rows ∧ after.entries = table.entries ++ rows ∧
          post () after) := by
  induction items with
  | nil =>
    intro table post _
    have hnil : importEntries [] table = (.ok (), table) := rfl
    rw [Stateful.returns_of_apply hnil]
    constructor
    · intro hpost
      exact ⟨[], table, .nil, (List.append_nil _).symm, hpost⟩
    · rintro ⟨_, after, ⟨⟩, hafter, hpost⟩
      have hsame : after = table := by
        cases after
        cases table
        simpa using hafter
      exact hsame ▸ hpost
  | cons i items ih =>
    intro table post hnew
    rw [List.forall_mem_cons] at hvalid hnew
    rw [List.map_cons, List.nodup_cons] at hnodup
    have hset : ∀ {row}, RowOf i row →
        (Dict.set table row.1 row.2).entries = table.entries ++ [row] := by
      intro row hrow
      apply setItem_of_notMem
      intro hmem
      obtain ⟨old, hold, hkey⟩ := List.mem_map.mp hmem
      exact hnew.1 old hold row hrow hkey.symm
    -- the row of this entry is not one of the rows to come
    have hrest : ∀ {row}, RowOf i row → ∀ j ∈ items, ∀ old ∈ (Dict.set table row.1 row.2).entries,
        ∀ row', RowOf j row' → row'.1 ≠ old.1 := by
      intro row hrow j hj old hold row' hrow' hkey
      rw [hset hrow] at hold
      rcases List.mem_append.mp hold with hold | hold
      · exact hnew.2 j hj old hold row' hrow' hkey
      · rw [List.mem_singleton.mp hold] at hkey
        exact hnodup.1 (List.mem_map.mpr ⟨j, hj, hrow'.inj hrow hkey⟩)
    have hstep : Stateful.Returns (importEntries (i :: items)) table post ↔
        ∃ row, RowOf i row ∧
          Stateful.Returns (importEntries items) (Dict.set table row.1 row.2) post := by
      simp only [importEntries, Stateful.returns_bind, Stateful.returns_liftM, returns_upsert]
      constructor
      · rintro ⟨text, htext, -, hkey, hlt, -, hreturns⟩
        exact ⟨((text, i.1.2), _), ⟨htext, rfl, hkey, hlt, rfl⟩, hreturns⟩
      · rintro ⟨⟨⟨text, key⟩, _⟩, ⟨htext, rfl, hkey, hlt, rfl⟩, hreturns⟩
        refine ⟨text, htext, clean_namespaceText htext, hkey, hlt, ?_, hreturns⟩
        cases hp : i.2.publicationId with
        | none => rfl
        | some p => exact hvalid.1.publicationId p hp
    rw [hstep]
    constructor
    · rintro ⟨row, hrow, hreturns⟩
      obtain ⟨rows, after, hrows, hafter, hpost⟩ := (ih hvalid.2 hnodup.2 (hrest hrow)).mp hreturns
      refine ⟨row :: rows, after, .cons hrow hrows, ?_, hpost⟩
      rw [hafter, hset hrow, List.append_assoc]
      rfl
    · rintro ⟨_, after, ⟨⟩, hafter, hpost⟩
      next row rows hrow hrows =>
      refine ⟨row, hrow, (ih hvalid.2 hnodup.2 (hrest hrow)).mpr ⟨rows, after, hrows, ?_, hpost⟩⟩
      rw [hafter, hset hrow, List.append_assoc]
      rfl

/-! ### The table after -/

section Imported

variable {entries : MemoryEntries} {after : SqlTable}
  (hrows : List.Forall₂ RowOf entries.entries after.entries)

include hrows

/-- The entries of the table are those of the file. -/
theorem tableEntry_of_rows : tableEntry after = entries.entry := by
  ext1 k
  rw [MemoryEntries.entry]
  cases hget : entries.get? k with
  | some e =>
    obtain ⟨row, hmem, hrow⟩ := exists_of_forall₂_left hrows (Dict.mem_entries_iff.mpr hget)
    obtain ⟨h, hvalue⟩ := hrow.row
    have hfound : after.get? (row.1.1, k.2) = some row.2 := by
      rw [← Dict.mem_entries_iff, ← show row.1.2 = k.2 from hrow.key]
      exact hmem
    rw [tableEntry_of_namespaceText hrow.ns, hfound, hvalue]
    rfl
  | none =>
    cases htext : namespaceText k.1 with
    | error e => exact tableEntry_of_namespaceText_error htext after
    | ok text =>
      rw [tableEntry_of_namespaceText htext]
      cases hfound : after.get? (text, k.2) with
      | none => rfl
      | some row =>
        -- the row would be that of an entry of the key
        obtain ⟨i, hi, hrow⟩ := exists_of_forall₂_right hrows (Dict.mem_entries_iff.mpr hfound)
        have hkey : i.1 = k := Prod.ext (namespaceText_inj hrow.ns htext) hrow.key.symm
        have hmem := Dict.mem_entries_iff.mp (show (i.1, i.2) ∈ entries.entries from hi)
        rw [hkey, hget] at hmem
        cases hmem

theorem tableValid_of_rows (hvalid : EntriesValid entries) : TableValid after := by
  intro row hmem
  obtain ⟨i, hi, hrow⟩ := exists_of_forall₂_right hrows hmem
  obtain ⟨h, hvalue⟩ := hrow.row
  refine ⟨⟨i.1.1, hrow.ns⟩, hrow.key ▸ hrow.clean, ?_, fun _ => ⟨i.2.generation, h, by rw [hvalue]⟩⟩
  rw [hvalue]
  cases hp : i.2.publicationId with
  | none => rfl
  | some p => exact (hvalid i hi).publicationId p hp

/-- The queries answer alike. -/
theorem call_eq_of_rows {source : File} (hread : readIndex source = .ok entries) {c : IndexCall}
    (hreads : c.writes = false) (hclean : c.Encodable) :
    (sqliteIndex.call c after).1 = (filesystemIndex.call c source).1 := by
  have hvalid := tableValid_of_rows hrows (entriesValid_of_readIndex hread)
  have hentry : tableEntry after = fileEntry source := by
    rw [tableEntry_of_rows hrows, fileEntry_of_readIndex hread]
  have htable : sqliteIndex.Accepts id after c := by
    refine sqliteIndex_accepts_of_reads hreads (sqliteIndex_accepts hvalid hclean ?_)
    rintro - k
    -- a query changes no entry, and the entries have rows
    have happly : c.apply (tableEntry after) k = entries.entry k := by
      rw [← tableEntry_of_rows hrows]
      cases c <;> first | rfl | cases hreads
    rw [happly, MemoryEntries.entry]
    cases hget : entries.get? k with
    | none => exact Nat.two_pow_pos 63
    | some e =>
      obtain ⟨row, -, hrow⟩ := exists_of_forall₂_left hrows (Dict.mem_entries_iff.mpr hget)
      exact hrow.row.1
  have hresult := @IndexImplementation.result_eq _ _ id sqliteIndex filesystemIndex after source
    hvalid trivial c htable (filesystemIndex_accepts_of_reads hread hreads) hentry
  rw [hresult, mapError_id]

end Imported

/-! ### The import -/

/-- The operation returns if it may replace what there is and every entry has a row. -/
theorem returns_replaceRows {entries : MemoryEntries} (hvalid : EntriesValid entries)
    {replace : Bool} {table : SqlTable} {post : ℕ → SqlTable → Prop} :
    Stateful.Returns (replaceRows entries replace) table post ↔
      (table.size = 0 ∨ replace = true) ∧ ∃ after : SqlTable,
        List.Forall₂ RowOf entries.entries after.entries ∧ post entries.size after := by
  have hempty : ∀ {t : SqlTable}, t.size = 0 → t = Dict.empty := by
    intro t h
    cases t with
    | mk items _ =>
      cases items with
      | nil => rfl
      | cons _ _ => cases h
  have himport : ∀ {t : SqlTable}, t.size = 0 →
      (Stateful.Returns (importEntries entries.entries) t (fun _ after => post entries.size after) ↔
        ∃ after : SqlTable, List.Forall₂ RowOf entries.entries after.entries ∧
          post entries.size after) := by
    intro t h
    rw [hempty h, returns_importEntries hvalid entries.nodup (by rintro i - row ⟨⟩)]
    constructor
    · rintro ⟨rows, after, hrows, hafter, hpost⟩
      exact ⟨after, by rwa [hafter], hpost⟩
    · rintro ⟨after, hrows, hpost⟩
      exact ⟨_, after, hrows, rfl, hpost⟩
  have hcheck : raiseIf (table.size ≠ 0 && !replace)
      "SQLite active-key index destination is not empty" = .ok () ↔
      (table.size = 0 ∨ replace = true) := by
    rw [raiseIf_eq_ok]
    cases replace <;> simp
  have hcount : countRows table = (.ok table.size, table) := rfl
  simp only [replaceRows, Stateful.returns_bind, Stateful.returns_of_apply hcount,
    Stateful.returns_liftM, Unique.exists_iff, PUnit.default_eq_unit, hcheck]
  refine and_congr_right fun hallowed => ?_
  cases replace with
  | false =>
    have hsize : table.size = 0 := hallowed.resolve_right Bool.false_ne_true
    simp only [Bool.false_eq_true, ↓reduceIte, Stateful.returns_bind, Stateful.returns_pure]
    exact himport hsize
  | true =>
    simp only [↓reduceIte, Stateful.returns_bind, Stateful.returns_modify, Stateful.returns_pure]
    exact himport rfl

/-- The import returns if the file is read, it may replace what there is, and every entry has a
row. -/
theorem importFilesystem_eq_ok {replace : Bool} {source : File} {table : SqlTable} {n : ℕ}
    {after : File × SqlTable} :
    importFilesystem replace (source, table) = (.ok n, after) ↔
      ∃ entries, readIndex source = .ok entries ∧ (table.size = 0 ∨ replace = true) ∧
        List.Forall₂ RowOf entries.entries after.2.entries ∧ n = entries.size ∧
        after.1 = source := by
  unfold importFilesystem
  dsimp only
  cases hread : readIndex source with
  | error e => simp
  | ok entries =>
    have htransaction : ∀ {rows : SqlTable}, transaction (replaceRows entries replace) table =
        (.ok n, rows) ↔ replaceRows entries replace table = (.ok n, rows) := by
      intro rows
      rw [transaction]
      cases replaceRows entries replace table with
      | mk result rows' => cases result <;> simp
    have hrun : replaceRows entries replace table = (.ok n, after.2) ↔
        (table.size = 0 ∨ replace = true) ∧ List.Forall₂ RowOf entries.entries after.2.entries ∧
          n = entries.size := by
      rw [Stateful.eq_ok_iff_returns, returns_replaceRows (entriesValid_of_readIndex hread)]
      constructor
      · rintro ⟨hallowed, rows, hrows, hsize, rfl⟩
        exact ⟨hallowed, hrows, hsize.symm⟩
      · rintro ⟨hallowed, hrows, rfl⟩
        exact ⟨hallowed, _, hrows, rfl, rfl⟩
    have hsplit : ((transaction (replaceRows entries replace) table).1,
        (source, (transaction (replaceRows entries replace) table).2)) = (.ok n, after) ↔
        transaction (replaceRows entries replace) table = (.ok n, after.2) ∧ after.1 = source := by
      rw [Prod.ext_iff, Prod.ext_iff, Prod.ext_iff]
      tauto
    dsimp only
    rw [hsplit, htransaction, hrun]
    simp [and_assoc]

/-- A dictionary with exactly some keys has no other. -/
theorem get_eq_none_of_hasExactKeys {value : Value} {expected : List Str} {key : Str}
    (h : value.hasExactKeys expected = true) (hkey : key ∉ expected) : value.get key = .none := by
  cases value with
  | dict items =>
    rw [Value.hasExactKeys, Bool.and_eq_true, List.all_eq_true] at h
    have hnone : items.lookup key = none := by
      rw [List.lookup_eq_none_iff]
      intro i hi
      have hmem := of_decide_eq_true (h.1 i hi)
      rw [bne_iff_ne]
      rintro rfl
      exact hkey hmem
    rw [Value.get, hnone]
    rfl
  | _ => cases h

/-- An entry of the first version has no publication identifier. -/
theorem publicationId_of_readIndexEntry {item : Value} {i : NativeKey × IndexEntry}
    (h : readIndexEntry false item = .ok i) : i.2.publicationId = none := by
  obtain ⟨hkeys, h⟩ := Except.check_eq_ok.mp h
  rw [raiseIf_eq_ok, Bool.not_eq_false'] at hkeys
  have hid := @get_eq_none_of_hasExactKeys item _ (lit "publication_id") hkeys (by decide)
  rw [hid] at h
  split at h
  · obtain ⟨native, -, h⟩ := Except.bind_eq_ok.mp h
    split at h
    · cases h
      rfl
    · cases h
  · cases h

theorem publicationId_of_readIndexEntries {items : List Value} :
    ∀ {entries after : MemoryEntries}, (∀ i ∈ entries.entries, i.2.publicationId = none) →
      readIndexEntries false items entries = .ok after →
      ∀ i ∈ after.entries, i.2.publicationId = none := by
  induction items with
  | nil =>
    rintro entries after h ⟨⟩
    exact h
  | cons item items ih =>
    intro entries after h hread
    obtain ⟨i, hi, hread⟩ := Except.bind_eq_ok.mp hread
    obtain ⟨-, hread⟩ := Except.check_eq_ok.mp hread
    refine ih ?_ hread
    intro j hj
    rcases mem_setItem hj with hold | rfl
    · exact h j hold
    · exact publicationId_of_readIndexEntry hi

/-- The entries of a document of the first version have no publication identifiers. -/
theorem publicationId_of_readIndex {data : Bytes} {value : Value} {entries : MemoryEntries}
    (hvalue : File.loadJson (some data) = .ok value)
    (hversion : (value.get (lit "version")).eqInt 2 = false)
    (h : readIndex (some data) = .ok entries) :
    ∀ i ∈ entries.entries, i.2.publicationId = none := by
  rw [readIndex, hvalue] at h
  dsimp only at h
  unfold checkIndexDocument at h
  split_ifs at h
  · cases h
  · split at h
    · rw [hversion] at h
      exact publicationId_of_readIndexEntries (by rintro i ⟨⟩) h
    · cases h

/-- The import of a file is faithful and atomic. -/
theorem importFilesystem_faithful (replace : Bool) (source : File) (table : SqlTable) :
    -- an import that raises leaves the file and the table as they were
    (∀ e after, importFilesystem replace (source, table) = (.error e, after) →
      after = (source, table)) ∧
    -- it raises just if the file is refused, the table holds rows to keep, or a row is refused
    ((∃ n after, importFilesystem replace (source, table) = (.ok n, after)) ↔
      ∃ entries, readIndex source = .ok entries ∧ (table.size = 0 ∨ replace = true) ∧
        ∀ i ∈ entries.entries, Insertable i) ∧
    -- after one that returns, the rows are those of the entries, and the queries answer alike
    ∀ n after, importFilesystem replace (source, table) = (.ok n, after) →
      after.1 = source ∧
      ∃ entries, readIndex source = .ok entries ∧ n = entries.size ∧
        List.Forall₂ RowOf entries.entries after.2.entries ∧
        (∀ c : IndexCall, c.writes = false → c.Encodable →
          (sqliteIndex.call c after.2).1 = (filesystemIndex.call c source).1) ∧
        ∀ data value, source = some data → File.loadJson source = .ok value →
          (value.get (lit "version")).eqInt 2 = false →
          ∀ row ∈ after.2.entries, row.2.publicationId = none := by
  refine ⟨?_, ?_, ?_⟩
  · intro e after h
    unfold importFilesystem at h
    dsimp only at h
    split at h
    · exact (Prod.mk.inj h).2.symm
    · next entries _ =>
      obtain ⟨hresult, hafter⟩ := Prod.mk.inj h
      rw [← hafter]
      unfold transaction at hresult ⊢
      cases hrun : replaceRows entries replace table with
      | mk result rows =>
        rw [hrun] at hresult
        cases result with
        | ok n => cases hresult
        | error e' => rfl
  · constructor
    · rintro ⟨n, after, h⟩
      obtain ⟨entries, hread, hallowed, hrows, -, -⟩ := importFilesystem_eq_ok.mp h
      refine ⟨entries, hread, hallowed, fun i hi => ?_⟩
      obtain ⟨row, -, hrow⟩ := exists_of_forall₂_left hrows hi
      exact (exists_rowOf_iff (entriesValid_of_readIndex hread i hi)).mp ⟨row, hrow⟩
    · rintro ⟨entries, hread, hallowed, hinsertable⟩
      have hvalid := entriesValid_of_readIndex hread
      obtain ⟨rows, hrows⟩ := exists_forall₂_iff.mpr fun i hi =>
        (exists_rowOf_iff (hvalid i hi)).mpr (hinsertable i hi)
      refine ⟨entries.size, (source, ⟨rows, nodup_rows hrows entries.nodup⟩), ?_⟩
      exact importFilesystem_eq_ok.mpr ⟨entries, hread, hallowed, hrows, rfl, rfl⟩
  · intro n after h
    obtain ⟨entries, hread, -, hrows, hsize, hsource⟩ := importFilesystem_eq_ok.mp h
    refine ⟨hsource, entries, hread, hsize, hrows, fun c => call_eq_of_rows hrows hread, ?_⟩
    rintro data value rfl hvalue hversion row hrow
    obtain ⟨i, hi, hof⟩ := exists_of_forall₂_right hrows hrow
    obtain ⟨hlt, hvalue'⟩ := hof.row
    rw [hvalue']
    exact publicationId_of_readIndex hvalue hversion hread i hi

/-! ### Texts that are not Unicode -/

/-- An index file without entries. -/
def emptyIndexFile : File := some (canonicalBytes (indexValue Dict.empty))

theorem readIndex_emptyIndexFile : readIndex emptyIndexFile = .ok Dict.empty := by
  obtain ⟨data, hdata⟩ := @exists_writeIndex Dict.empty entriesValid_empty (by rintro i ⟨⟩)
    (by rintro i ⟨⟩)
  obtain ⟨after, hread, hperm⟩ := readIndex_of_writeIndex entriesValid_empty hdata
  obtain ⟨-, rfl⟩ := canonicalJson_eq_ok.mp hdata
  have hempty : after = Dict.empty := by
    cases after with
    | mk items _ =>
      have hnil : items = [] := hperm.eq_nil
      subst hnil
      rfl
  rw [emptyIndexFile, hread, hempty]

/-- After the import of a file without entries, a key with a lone surrogate has generation 0 in the
file and is refused by the database; so is a namespace with an empty part. -/
theorem importFilesystem_refuses :
    importFilesystem false (emptyIndexFile, Dict.empty) = (.ok 0, (emptyIndexFile, Dict.empty)) ∧
      (filesystemIndex.call (.generation ([lit "graph"], [0xD800])) emptyIndexFile).1 =
        .ok (.generation 0) ∧
      (sqliteIndex.call (.generation ([lit "graph"], [0xD800])) Dict.empty).1.isOk = false ∧
      (filesystemIndex.call (.activeKeys [[]]) emptyIndexFile).1 = .ok (.keys []) ∧
      (sqliteIndex.call (.activeKeys [[]]) Dict.empty).1.isOk = false := by
  have hread := readIndex_emptyIndexFile
  refine ⟨?_, ?_, ?_, ?_, rfl⟩
  · exact importFilesystem_eq_ok.mpr ⟨Dict.empty, hread, .inl rfl, .nil, rfl, rfl⟩
  · rw [filesystemIndex_call, callIndexFile, hread]
    rfl
  · have hrefuses : ∀ {answer : IndexAnswer} {after : SqlTable},
        ¬callTable (.generation ([lit "graph"], [0xD800])) Dict.empty = (.ok answer, after) := by
      intro answer after h
      rw [Stateful.eq_ok_iff_returns, callTable, returns_withEntry] at h
      obtain ⟨-, text, -, hclean, -⟩ := h
      exact absurd (hclean 0xD800 List.mem_cons_self) (by decide)
    show (transaction _ _).1.isOk = false
    rw [transaction]
    cases h : callTable (.generation ([lit "graph"], [0xD800])) Dict.empty with
    | mk result after =>
      cases result with
      | ok answer => exact absurd h hrefuses
      | error e => rfl
  · rw [filesystemIndex_call, callIndexFile, hread]
    rfl

end OnceMesh
