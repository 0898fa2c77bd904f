import OnceMesh.Integrations.Operations
import OnceMesh.Python.Stateful.Returns
import OnceMesh.Python.Text.Utf8Order

/-!
# The active-key index in a database

`SQLiteActiveKeyIndex` keeps the entries in a table whose primary key is a namespace, in canonical
JSON, and a key. A call runs in a transaction: what its statements change is rolled back if it
raises. Numbers are bound as 64-bit integers, and texts in UTF-8.

Rows stand for entries through the text of the namespace (`tableEntry`); that text determines the
namespace (`namespaceText_inj`), and `sqliteIndex` is an implementation over the contents of the
table.
-/

namespace OnceMesh

open Python

/-! ### Statements -/

/-- What the column `generation` holds. -/
inductive SqlInteger where
  /-- A 64-bit integer that is not negative. -/
  | integer (n : ℕ) (h : n < 2 ^ 63)
  /-- `9223372036854775808.0`, to which the sum of integers overflows. -/
  | real
  deriving DecidableEq

namespace SqlInteger

/-- `int(row[0])`. -/
def value : SqlInteger → ℕ
  | integer n _ => n
  | real => 2 ^ 63

/-- `generation + 1` in SQL. -/
def succ : SqlInteger → SqlInteger
  | integer n _ => if h : n + 1 < 2 ^ 63 then .integer (n + 1) h else .real
  | real => .real

end SqlInteger

/-- A row of `active_keys`, apart from its primary key. -/
structure ActiveKeyRow where
  generation : SqlInteger
  active : Bool
  publicationId : Option Str
  deriving DecidableEq

/-- The table `active_keys`: the rows by namespace and native key. -/
abbrev SqlTable := Dict (Str × Str) ActiveKeyRow

/-- A text parameter is bound in UTF-8. -/
def bindText (s : Str) : Except PyError Unit :=
  if (encodeUtf8 s).isSome then .ok () else .error .unicodeError

/-- An integer parameter is bound in 64 bits. -/
def bindInteger (n : ℕ) : Except PyError SqlInteger :=
  if h : n < 2 ^ 63 then .ok (.integer n h) else .error .overflowError

/-- `CHECK (publication_id IS NULL OR …)`. -/
def checkPublicationId (publicationId : Option Str) : Except PyError Unit :=
  if publicationId.all isPublicationId then .ok ()
  else .error (.other (lit "sqlite3.IntegrityError") (lit "CHECK constraint failed"))

/-- `_namespace`: the namespace in canonical JSON. -/
def namespaceText (ns : List Str) : Except PyError Str := do
  raiseIf (ns.any (· = [])) "namespace must be a tuple of non-empty strings"
  let data ← canonicalJson (.list (ns.map .str))
  match decodeUtf8 data with
  | some text => pure text
  | none => .error .unicodeError

/-- The entry a row stands for. -/
def rowEntry : Option ActiveKeyRow → IndexEntry
  | some row => ⟨row.generation.value, row.active, row.publicationId⟩
  | none => .absent

/-- `_entry`. -/
def selectEntry (ns key : Str) : Stateful PyError SqlTable IndexEntry := fun table =>
  (do
    bindText ns
    bindText key
    pure (rowEntry (table.get? (ns, key))), table)

/-- `_upsert`. -/
def upsert (ns key : Str) (generation : ℕ) (active : Bool) (publicationId : Option Str) :
    Stateful PyError SqlTable Unit := do
  bindText ns
  bindText key
  let generation ← bindInteger generation
  checkPublicationId publicationId
  Stateful.modify fun table => Dict.set table (ns, key) { generation, active, publicationId }

/-- `UPDATE … SET generation = generation + 1, active = 0, publication_id = NULL WHERE active = 1`,
for the namespaces that are selected, and `rowcount`. -/
def clearRows (selected : Str → Bool) : Stateful PyError SqlTable ℕ := fun table =>
  (.ok (table.filter fun k row => selected k.1 && row.active).size,
    table.mapValues fun k row =>
      if selected k.1 && row.active then ⟨row.generation.succ, false, none⟩ else row)

/-- The collation `BINARY`: texts in the order of their octets. -/
def textLE (s t : Str) : Prop := (encodeUtf8 s).getD [] ≤ (encodeUtf8 t).getD []

instance : DecidableRel textLE := fun _ _ => inferInstanceAs (Decidable (_ ≤ _))

/-- `SELECT native_key … WHERE namespace = ? AND active = 1 ORDER BY native_key`. -/
def selectActiveKeys (ns : Str) : Stateful PyError SqlTable (List Str) := fun table =>
  let rows := (table.filter fun k row => k.1 = ns && row.active).entries.map Prod.fst
  (.ok ((rows.map Prod.snd).insertionSort textLE), table)

/-- `"locked" in message.lower()`. Besides the capital letters, only `U+212A` has one of these
letters for its lowercase: `k`. -/
def mentionsLocked (message : Str) : Bool :=
  containsText ((lower message).map fun c => if c = 0x212A then 0x6B else c) (lit "locked")

/-- `_translate_locked`: what is raised in place of an error that says that the database is locked,
by the code `SQLITE_BUSY` (5) or `SQLITE_LOCKED` (6) or in words. -/
def translateLocked : PyError → PyError
  | .sqliteOperationalError code message =>
    if code &&& 0xFF = 5 || code &&& 0xFF = 6 || mentionsLocked message then
      .other (lit "CoordinationTimeoutError") (lit "timed out acquiring SQLite index transaction")
    else .sqliteOperationalError code message
  | e => e

/-- `_transaction`: what an operation that raises has changed is rolled back. -/
def transaction {α : Type} (operation : Stateful PyError SqlTable α) :
    Stateful PyError SqlTable α :=
  fun table =>
    match operation table with
    | (.ok a, after) => (.ok a, after)
    | (.error e, _) => (.error (translateLocked e), table)

/-! ### Calls -/

/-- What a call of one key does first: it checks the key, and reads its entry. -/
def withEntry (k : NativeKey) (f : Str → IndexEntry → Stateful PyError SqlTable IndexAnswer) :
    Stateful PyError SqlTable IndexAnswer := do
  validateNative k
  let ns ← namespaceText k.1
  let entry ← selectEntry ns k.2
  f ns entry

/-- A call on the table, inside its transaction; a call that only reads has none, nor anything to be
rolled back or translated. -/
def callTable : IndexCall → Stateful PyError SqlTable IndexAnswer
  | .generation k => withEntry k fun _ entry => pure (.generation entry.generation)
  | .isActive k => withEntry k fun _ entry => pure (.flag entry.active)
  | .activeRevision k => withEntry k fun _ entry => pure (.revision entry.revision)
  | .preparePut k => withEntry k fun ns entry => do
    upsert ns k.2 entry.nextGeneration false none
    pure (.generation entry.nextGeneration)
  | .activate k => withEntry k fun ns entry => do
    upsert ns k.2 entry.generation true entry.publicationId
    pure .none
  | .publishAndActivate k publicationId publisher => withEntry k fun ns entry => do
    publisher entry.nextGeneration publicationId.hex
    upsert ns k.2 entry.nextGeneration true (some publicationId.hex)
    pure (.generation entry.nextGeneration)
  | .delete k => withEntry k fun ns entry =>
    if entry.active then do
      upsert ns k.2 (entry.generation + 1) false none
      pure (.flag true)
    else pure (.flag false)
  | .activeKeys ns => do
    let ns ← namespaceText ns
    let keys ← selectActiveKeys ns
    pure (.keys keys)
  | .clearNamespace ns => do
    let ns ← namespaceText ns
    let count ← clearRows fun ns' => ns' = ns
    pure (.count count)
  | .clearAll => do
    let count ← clearRows fun _ => true
    pure (.count count)

/-- The entry of a key in the table. -/
def tableEntry (table : SqlTable) (k : NativeKey) : IndexEntry :=
  match namespaceText k.1 with
  | .ok ns => rowEntry (table.get? (ns, k.2))
  | .error _ => .absent

/-- A row has the text of a namespace, a key that UTF-8 encodes and a publication identifier that
the schema accepts; an active row has an integer. -/
structure RowValid (i : (Str × Str) × ActiveKeyRow) : Prop where
  ns : ∃ ns, namespaceText ns = .ok i.1.1
  key : Clean i.1.2
  publicationId : i.2.publicationId.all isPublicationId = true
  generation : i.2.active = true → ∃ n h, i.2.generation = .integer n h

/-- Every row is valid. -/
def TableValid (table : SqlTable) : Prop := ∀ i ∈ table.entries, RowValid i

/-! ### Namespaces and rows -/

theorem bindText_eq_ok {s : Str} : bindText s = .ok () ↔ Clean s := by
  rw [bindText, Clean, ← encodeUtf8_isSome_iff]
  split_ifs with h
  · exact iff_of_true rfl h
  · exact iff_of_false (by rintro ⟨⟩) h

theorem bindInteger_eq_ok {n : ℕ} {i : SqlInteger} :
    bindInteger n = .ok i ↔ ∃ h, i = .integer n h := by
  unfold bindInteger
  split_ifs with h
  · exact ⟨fun heq => ⟨h, (Except.ok.inj heq).symm⟩, fun ⟨_, hi⟩ => hi ▸ rfl⟩
  · exact iff_of_false (by rintro ⟨⟩) fun ⟨hn, _⟩ => h hn

theorem inProfile_namespace {ns : List Str} :
    InProfile (.list (ns.map .str)) ↔ ∀ part ∈ ns, Clean part := by
  constructor
  · intro h part hpart
    cases h with
    | list helements =>
      cases helements _ (List.mem_map_of_mem hpart) with
      | str hclean => exact hclean
  · intro h
    refine .list fun v hv => ?_
    obtain ⟨part, hpart, rfl⟩ := List.mem_map.mp hv
    exact .str (h part hpart)

/-- Namespaces with texts have non-empty parts without surrogates. -/
theorem namespaceText_eq_ok {ns : List Str} {text : Str} :
    namespaceText ns = .ok text ↔ ((∀ part ∈ ns, part ≠ []) ∧ ∀ part ∈ ns, Clean part) ∧
      text = Json.dumps (.list (ns.map .str)) := by
  rw [namespaceText, Except.check_eq_ok, raiseIf_eq_ok, List.any_eq_false, Except.bind_eq_ok,
    and_assoc]
  refine and_congr (by simp) ?_
  constructor
  · rintro ⟨data, hdata, h⟩
    obtain ⟨hin, rfl⟩ := canonicalJson_eq_ok.mp hdata
    rw [decodeUtf8_of_encodeUtf8 (encodeUtf8_dumps hin)] at h
    exact ⟨inProfile_namespace.mp hin, (Except.ok.inj h).symm⟩
  · rintro ⟨hclean, rfl⟩
    have hin := inProfile_namespace.mpr hclean
    refine ⟨_, canonicalJson_of_inProfile hin, ?_⟩
    rw [decodeUtf8_of_encodeUtf8 (encodeUtf8_dumps hin)]
    rfl

/-- The text determines the namespace. -/
theorem namespaceText_inj {ns ns' : List Str} {text : Str} (h : namespaceText ns = .ok text)
    (h' : namespaceText ns' = .ok text) : ns = ns' := by
  have hloads : ∀ {ns : List Str}, namespaceText ns = .ok text →
      Json.loads text = .ok (.list (ns.map .str)) := by
    intro ns h
    obtain ⟨⟨-, hclean⟩, rfl⟩ := namespaceText_eq_ok.mp h
    have hwf : (Value.list (ns.map .str)).WellFormed := by
      simp [Value.WellFormed, Value.wellFormedList_iff]
    have hsorted : (Value.list (ns.map .str)).sortKeys = .list (ns.map .str) := by
      rw [Value.sortKeys, Value.sortKeysList_eq, List.map_map]
      rfl
    rw [Json.loads_dumps (inProfile_namespace.mpr hclean).serializable hwf, hsorted]
  have hsame := Value.list.inj (Except.ok.inj ((hloads h).symm.trans (hloads h')))
  exact List.map_injective_iff.mpr (fun _ _ => Value.str.inj) hsame

/-- The text of a namespace is bound. -/
theorem clean_namespaceText {ns : List Str} {text : Str} (h : namespaceText ns = .ok text) :
    Clean text := by
  obtain ⟨⟨-, hclean⟩, rfl⟩ := namespaceText_eq_ok.mp h
  exact clean_dumps (inProfile_namespace.mpr hclean)

theorem tableEntry_of_namespaceText {k : NativeKey} {text : Str} (h : namespaceText k.1 = .ok text)
    (table : SqlTable) : tableEntry table k = rowEntry (table.get? (text, k.2)) := by
  rw [tableEntry, h]

theorem tableEntry_of_namespaceText_error {k : NativeKey} {e : PyError}
    (h : namespaceText k.1 = .error e) (table : SqlTable) : tableEntry table k = .absent := by
  rw [tableEntry, h]

/-- `_entry` reads the entry of the key. -/
theorem returns_selectEntry {k : NativeKey} {text : Str} (h : namespaceText k.1 = .ok text)
    {table : SqlTable} {post : IndexEntry → SqlTable → Prop} :
    Stateful.Returns (selectEntry text k.2) table post ↔
      Clean k.2 ∧ post (tableEntry table k) table := by
  have hns := bindText_eq_ok.mpr (clean_namespaceText h)
  rw [tableEntry_of_namespaceText h]
  by_cases hkey : Clean k.2
  · have hrun : selectEntry text k.2 table = (.ok (rowEntry (table.get? (text, k.2))), table) := by
      rw [selectEntry, hns, bindText_eq_ok.mpr hkey]
      rfl
    rw [Stateful.returns_of_apply hrun, and_iff_right hkey]
  · cases hbind : bindText k.2 with
    | ok u => exact absurd (bindText_eq_ok.mp hbind) hkey
    | error e =>
      have hrun : selectEntry text k.2 table = (.error e, table) := by
        rw [selectEntry, hns, hbind]
        rfl
      exact iff_of_false (Stateful.not_returns_of_apply hrun) fun h => hkey h.1

/-- `_upsert` sets the row. -/
theorem returns_upsert {text key : Str} {generation : ℕ} {active : Bool}
    {publicationId : Option Str} {table : SqlTable} {post : Unit → SqlTable → Prop} :
    Stateful.Returns (upsert text key generation active publicationId) table post ↔
      Clean text ∧ Clean key ∧ ∃ h : generation < 2 ^ 63, publicationId.all isPublicationId = true ∧
        post () (Dict.set table (text, key) ⟨.integer generation h, active, publicationId⟩) := by
  have hcheck : checkPublicationId publicationId = .ok () ↔
      publicationId.all isPublicationId = true := by
    unfold checkPublicationId
    split_ifs with h <;> simp [h]
  simp only [upsert, Stateful.returns_bind, Stateful.returns_liftM, Stateful.returns_modify,
    Unique.exists_iff, PUnit.default_eq_unit, bindText_eq_ok, bindInteger_eq_ok, hcheck]
  refine and_congr_right fun _ => and_congr_right fun _ => ?_
  constructor
  · rintro ⟨i, ⟨h, rfl⟩, hrest⟩
    exact ⟨h, hrest⟩
  · rintro ⟨h, hrest⟩
    exact ⟨_, ⟨h, rfl⟩, hrest⟩

/-- Setting the row of a key changes the entry of that key. -/
theorem tableEntry_set {k : NativeKey} {text : Str} (h : namespaceText k.1 = .ok text)
    (table : SqlTable) (row : ActiveKeyRow) (k' : NativeKey) :
    tableEntry (Dict.set table (text, k.2) row) k' =
      if k' = k then rowEntry (some row) else tableEntry table k' := by
  by_cases hk : k' = k
  · rw [hk, if_pos rfl, tableEntry_of_namespaceText h, Dict.get?_set, if_pos rfl]
  · rw [if_neg hk]
    cases h' : namespaceText k'.1 with
    | error e =>
      rw [tableEntry_of_namespaceText_error h', tableEntry_of_namespaceText_error h']
    | ok text' =>
      have hne : ¬(text', k'.2) = (text, k.2) := by
        intro heq
        obtain ⟨rfl, hkey⟩ := Prod.mk.inj heq
        exact hk (Prod.ext (namespaceText_inj h' h) hkey)
      rw [tableEntry_of_namespaceText h', tableEntry_of_namespaceText h', Dict.get?_set, if_neg hne]

theorem TableValid.set {table : SqlTable} (h : TableValid table) {k : Str × Str}
    {row : ActiveKeyRow} (hk : RowValid (k, row)) : TableValid (Dict.set table k row) := by
  intro i hi
  rcases mem_setItem hi with hold | rfl
  · exact h i hold
  · exact hk

/-- The calls of one key read its entry first. -/
theorem returns_withEntry {k : NativeKey}
    {f : Str → IndexEntry → Stateful PyError SqlTable IndexAnswer}
    {table : SqlTable} {post : IndexAnswer → SqlTable → Prop} :
    Stateful.Returns (withEntry k f) table post ↔
      validateNative k = .ok () ∧ ∃ text, namespaceText k.1 = .ok text ∧ Clean k.2 ∧
        Stateful.Returns (f text (tableEntry table k)) table post := by
  simp only [withEntry, Stateful.returns_bind, Stateful.returns_liftM, Unique.exists_iff,
    PUnit.default_eq_unit]
  refine and_congr_right fun _ => exists_congr fun text => and_congr_right fun h => ?_
  exact returns_selectEntry h

/-- A row that is written is valid, and its entry is what was written. -/
theorem upsert_eq_ok {k : NativeKey} {text : Str} (h : namespaceText k.1 = .ok text)
    {generation : ℕ} {active : Bool} {publicationId : Option Str} {table after : SqlTable}
    (hvalid : TableValid table)
    (hrun : upsert text k.2 generation active publicationId table = (.ok (), after)) :
    TableValid after ∧ tableEntry after = fun k' =>
      if k' = k then ⟨generation, active, publicationId⟩ else tableEntry table k' := by
  rw [Stateful.eq_ok_iff_returns] at hrun
  obtain ⟨-, hkey, hlt, hid, -, rfl⟩ := returns_upsert.mp hrun
  refine ⟨hvalid.set ⟨⟨k.1, h⟩, hkey, hid, fun _ => ⟨_, hlt, rfl⟩⟩, ?_⟩
  ext1 k'
  exact tableEntry_set h table _ k'

/-! ### Queries and updates -/

theorem textLE_iff {s t : Str} (hs : Clean s) (ht : Clean t) : textLE s t ↔ s ≤ t := by
  obtain ⟨a, ha⟩ := Option.isSome_iff_exists.mp (encodeUtf8_isSome_iff.mpr hs)
  obtain ⟨b, hb⟩ := Option.isSome_iff_exists.mp (encodeUtf8_isSome_iff.mpr ht)
  rw [textLE, ha, hb, Option.getD_some, Option.getD_some, ← List.not_lt, encode_lt_encode_iff hb ha,
    not_lt]

/-- A key is active when the table has an active row for it. -/
theorem tableEntry_active_iff {k : NativeKey} {table : SqlTable} :
    (tableEntry table k).active = true ↔ ∃ text row, namespaceText k.1 = .ok text ∧
      table.get? (text, k.2) = some row ∧ row.active = true := by
  cases h : namespaceText k.1 with
  | error e => simp [tableEntry_of_namespaceText_error h, IndexEntry.absent]
  | ok text =>
    rw [tableEntry_of_namespaceText h]
    cases hget : table.get? (text, k.2) <;> simp [hget, rowEntry, IndexEntry.absent]

/-- The active rows of some namespaces. -/
theorem mem_activeRows_iff {table : SqlTable} {selected : Str → Bool} {k : Str × Str} :
    k ∈ (table.filter fun k row => selected k.1 && row.active).entries.map Prod.fst ↔
      selected k.1 = true ∧ ∃ row, table.get? k = some row ∧ row.active = true := by
  rw [List.mem_map]
  constructor
  · rintro ⟨⟨k, row⟩, hmem, rfl⟩
    obtain ⟨hget, hkeep⟩ := Dict.get?_filter_eq_some.mp (Dict.mem_entries_iff.mp hmem)
    rw [Bool.and_eq_true] at hkeep
    exact ⟨hkeep.1, row, hget, hkeep.2⟩
  · rintro ⟨hselected, row, hget, hactive⟩
    refine ⟨(k, row), Dict.mem_entries_iff.mpr (Dict.get?_filter_eq_some.mpr ⟨hget, ?_⟩), rfl⟩
    rw [hselected, hactive]
    rfl

/-- The query answers the active keys of the namespace, in order. -/
theorem selectActiveKeys_spec {ns : List Str} {text : Str} (h : namespaceText ns = .ok text)
    {table : SqlTable} (hvalid : TableValid table) :
    ∃ keys, selectActiveKeys text table = (.ok keys, table) ∧ keys.Pairwise (· < ·) ∧
      ∀ key, key ∈ keys ↔ (tableEntry table (ns, key)).active = true := by
  have hmem : ∀ k, k ∈ (table.filter fun k row => k.1 = text && row.active).entries.map Prod.fst ↔
      k.1 = text ∧ ∃ row, table.get? k = some row ∧ row.active = true := by
    intro k
    simpa using @mem_activeRows_iff table (fun t => t = text) k
  have hclean : ∀ k ∈ (table.filter fun k row => k.1 = text && row.active).entries.map Prod.fst,
      Clean k.2 := by
    intro k hk
    obtain ⟨-, row, hget, -⟩ := (hmem k).mp hk
    exact (hvalid _ (Dict.mem_entries_iff.mpr hget)).key
  have hnodup := Dict.nodup (table.filter fun k row => k.1 = text && row.active)
  refine ⟨_, rfl, ?_, fun key => ?_⟩
  all_goals
    generalize (table.filter fun k row => k.1 = text && row.active).entries.map Prod.fst = rows at *
  · -- on these keys the collation is the order of code points
    have hsort : (rows.map Prod.snd).insertionSort textLE =
        (rows.map Prod.snd).insertionSort (· ≤ ·) := by
      have hmap := List.map_insertionSort (r := textLE) (s := (· ≤ ·)) id (rows.map Prod.snd)
        (by
          intro s hs t ht
          obtain ⟨k, hk, rfl⟩ := List.mem_map.mp hs
          obtain ⟨k', hk', rfl⟩ := List.mem_map.mp ht
          exact textLE_iff (hclean k hk) (hclean k' hk'))
      rwa [List.map_id, List.map_id] at hmap
    rw [hsort]
    apply pairwise_lt_insertionSort
    apply List.Nodup.map_on _ hnodup
    intro k hk k' hk' heq
    exact Prod.ext (((hmem k).mp hk).1.trans ((hmem k').mp hk').1.symm) heq
  · rw [List.mem_insertionSort, List.mem_map, tableEntry_active_iff]
    constructor
    · rintro ⟨⟨t, key⟩, hk, rfl⟩
      obtain ⟨rfl, row, hget, hactive⟩ := (hmem _).mp hk
      exact ⟨t, row, h, hget, hactive⟩
    · rintro ⟨t, row, ht, hget, hactive⟩
      have heq : t = text := Except.ok.inj (ht.symm.trans h)
      exact ⟨(t, key), (hmem _).mpr ⟨heq, row, hget, hactive⟩, rfl⟩

namespace SqlInteger

theorem value_succ_integer {n : ℕ} (h : n < 2 ^ 63) : (integer n h).succ.value = n + 1 := by
  rw [succ]
  split_ifs with hlt
  · rfl
  · show 2 ^ 63 = n + 1
    omega

end SqlInteger

/-- The update makes the entries of the namespaces inactive. -/
theorem tableEntry_clearRows {selected : Str → Bool} {table : SqlTable} (hvalid : TableValid table)
    {clears : NativeKey → Bool}
    (hclears : ∀ {k text}, namespaceText k.1 = .ok text → selected text = clears k)
    (k : NativeKey) :
    tableEntry (clearRows selected table).2 k =
      if clears k then (tableEntry table k).deleted else tableEntry table k := by
  cases h : namespaceText k.1 with
  | error e =>
    rw [tableEntry_of_namespaceText_error h, tableEntry_of_namespaceText_error h]
    split_ifs <;> rfl
  | ok text =>
    rw [tableEntry_of_namespaceText h, tableEntry_of_namespaceText h, ← hclears h, clearRows]
    dsimp only
    rw [Dict.get?_mapValues]
    cases hget : table.get? (text, k.2) with
    | none => split_ifs <;> rfl
    | some row =>
      cases hactive : row.active with
      | false => simp [rowEntry, IndexEntry.deleted, hactive]
      | true =>
        obtain ⟨n, hn, hrow⟩ := (hvalid _ (Dict.mem_entries_iff.mpr hget)).generation hactive
        have hvalue : row.generation.succ.value = row.generation.value + 1 := by
          have hgeneration : row.generation = .integer n hn := hrow
          rw [hgeneration, SqlInteger.value_succ_integer, SqlInteger.value]
        cases selected text <;> simp [rowEntry, IndexEntry.deleted, hactive, hvalue]

/-- The update counts the active keys of the namespaces. -/
theorem clearRows_count {selected : Str → Bool} {table : SqlTable} (hvalid : TableValid table)
    {clears : NativeKey → Bool}
    (hclears : ∀ {k text}, namespaceText k.1 = .ok text → selected text = clears k) :
    ∃ keys : List NativeKey, (clearRows selected table).1 = .ok keys.length ∧ keys.Nodup ∧
      ∀ k, k ∈ keys ↔ clears k = true ∧ (tableEntry table k).active = true := by
  have hmem : ∀ {k},
    k ∈ (table.filter fun k row => selected k.1 && row.active).entries.map Prod.fst ↔
      selected k.1 = true ∧ ∃ row, table.get? k = some row ∧ row.active = true := mem_activeRows_iff
  have hnodup := Dict.nodup (table.filter fun k row => selected k.1 && row.active)
  have hcount : (clearRows selected table).1 = .ok
      ((table.filter fun k row => selected k.1 && row.active).entries.map Prod.fst).length := by
    rw [List.length_map]
    rfl
  rw [hcount]
  generalize (table.filter fun k row => selected k.1 && row.active).entries.map Prod.fst = rows at *
  -- the namespaces of the rows
  have hns : ∀ k ∈ rows, ∃ native : NativeKey, namespaceText native.1 = .ok k.1 ∧
      native.2 = k.2 := by
    intro k hk
    obtain ⟨-, row, hget, -⟩ := hmem.mp hk
    obtain ⟨ns, h⟩ := (hvalid _ (Dict.mem_entries_iff.mpr hget)).ns
    exact ⟨(ns, k.2), h, rfl⟩
  choose! native htext hkey using hns
  refine ⟨rows.map native, by rw [List.length_map], ?_, fun k => ?_⟩
  · apply List.Nodup.map_on _ hnodup
    intro k hk k' hk' heq
    apply Prod.ext
    · exact Except.ok.inj ((htext k hk).symm.trans (heq ▸ htext k' hk'))
    · exact (hkey k hk).symm.trans (heq ▸ hkey k' hk')
  · rw [tableEntry_active_iff, List.mem_map]
    constructor
    · rintro ⟨k, hk, rfl⟩
      obtain ⟨hselected, row, hget, hactive⟩ := hmem.mp hk
      refine ⟨(hclears (htext k hk)).symm.trans hselected, k.1, row, htext k hk, ?_, hactive⟩
      rwa [hkey k hk]
    · rintro ⟨hk, text, row, h, hget, hactive⟩
      have hrow : (text, k.2) ∈ rows := hmem.mpr ⟨(hclears h).trans hk, row, hget, hactive⟩
      exact ⟨_, hrow, Prod.ext (namespaceText_inj (htext _ hrow) h) (hkey _ hrow)⟩

theorem TableValid.clearRows {selected : Str → Bool} {table : SqlTable}
    (hvalid : TableValid table) :
    TableValid (clearRows selected table).2 := by
  intro i hi
  obtain ⟨j, hj, rfl⟩ := List.mem_map.mp hi
  have hold := hvalid j hj
  dsimp only
  split_ifs
  · exact ⟨hold.ns, hold.key, rfl, by rintro ⟨⟩⟩
  · exact ⟨hold.ns, hold.key, hold.publicationId, hold.generation⟩

/-! ### The entries after a call -/

/-- The rows a clear selects, by the texts of their namespaces. -/
theorem clearRows_spec {selected : Str → Bool} {clears : NativeKey → Bool}
    (hclears : ∀ {k text}, namespaceText k.1 = .ok text → selected text = clears k)
    {table after : SqlTable} {count : ℕ} (hvalid : TableValid table)
    (h : clearRows selected table = (.ok count, after)) :
    TableValid after ∧
      (∃ keys : List NativeKey, count = keys.length ∧ keys.Nodup ∧
        ∀ k, k ∈ keys ↔ clears k = true ∧ (tableEntry table k).active = true) ∧
      tableEntry after = fun k =>
        if clears k then (tableEntry table k).deleted else tableEntry table k := by
  obtain ⟨keys, hcount, hkeys⟩ := clearRows_count hvalid hclears
  have hafter : after = (clearRows selected table).2 := by rw [h]
  rw [h] at hcount
  refine ⟨hafter ▸ hvalid.clearRows, ⟨keys, Except.ok.inj hcount, hkeys⟩, ?_⟩
  ext1 k
  rw [hafter]
  exact tableEntry_clearRows hvalid hclears k

/-- A call that returns answers from the entries and changes them as it should. -/
theorem callTable_eq_ok {c : IndexCall} {table after : SqlTable} {answer : IndexAnswer}
    (hvalid : TableValid table) (h : callTable c table = (.ok answer, after)) :
    TableValid after ∧ c.Answers (tableEntry table) answer ∧
      tableEntry after = c.apply (tableEntry table) := by
  have hpure : ∀ {a : IndexAnswer} {t : SqlTable},
      (pure a : Stateful PyError SqlTable IndexAnswer) t = (.ok answer, after) →
      answer = a ∧ after = t := by
    intro a t hrun
    obtain ⟨ha, ht⟩ := Prod.mk.inj hrun
    exact ⟨(Except.ok.inj ha).symm, ht.symm⟩
  -- the calls of one key
  have hkey : ∀ {k f}, withEntry k f table = (.ok answer, after) →
      ∃ text, namespaceText k.1 = .ok text ∧ f text (tableEntry table k) table =
        (.ok answer, after) := by
    intro k f hrun
    rw [Stateful.eq_ok_iff_returns, returns_withEntry] at hrun
    obtain ⟨-, text, htext, -, hrun⟩ := hrun
    exact ⟨text, htext, Stateful.eq_ok_iff_returns.mpr hrun⟩
  have hset : ∀ {k : NativeKey} {text : Str} {generation active publicationId a},
      namespaceText k.1 = .ok text →
      (upsert text k.2 generation active publicationId >>= fun _ => pure a) table =
        (.ok answer, after) →
      TableValid after ∧ answer = a ∧ tableEntry after = fun k' =>
        if k' = k then ⟨generation, active, publicationId⟩ else tableEntry table k' := by
    intro k text generation active publicationId a htext hrun
    obtain ⟨u, written, hupsert, hreturn⟩ := Stateful.bind_eq_ok.mp hrun
    obtain ⟨rfl, rfl⟩ := hpure hreturn
    obtain ⟨hafter, hentry⟩ := upsert_eq_ok htext hvalid hupsert
    exact ⟨hafter, rfl, hentry⟩
  cases c with
  | generation k | isActive k | activeRevision k =>
    obtain ⟨text, -, hrun⟩ := hkey h
    obtain ⟨rfl, rfl⟩ := hpure hrun
    exact ⟨hvalid, rfl, rfl⟩
  | preparePut k =>
    obtain ⟨text, htext, hrun⟩ := hkey h
    obtain ⟨hafter, rfl, hentry⟩ := hset htext hrun
    refine ⟨hafter, rfl, hentry.trans (funext fun k' => ?_)⟩
    rw [IndexCall.apply]
    split_ifs with hk
    · rw [hk]
      rfl
    · rfl
  | activate k =>
    obtain ⟨text, htext, hrun⟩ := hkey h
    obtain ⟨hafter, rfl, hentry⟩ := hset htext hrun
    refine ⟨hafter, rfl, hentry.trans (funext fun k' => ?_)⟩
    rw [IndexCall.apply]
    split_ifs with hk
    · rw [hk]
      rfl
    · rfl
  | publishAndActivate k publicationId publisher =>
    obtain ⟨text, htext, hrun⟩ := hkey h
    obtain ⟨u, t, hpublish, hrun⟩ := Stateful.bind_eq_ok.mp hrun
    obtain ⟨hpublished, rfl⟩ := Prod.mk.inj hpublish
    obtain ⟨hafter, rfl, hentry⟩ := hset htext hrun
    refine ⟨hafter, ⟨hpublished, rfl⟩, hentry.trans (funext fun k' => ?_)⟩
    rw [IndexCall.apply]
    split_ifs with hk
    · rw [hk]
      rfl
    · rfl
  | delete k =>
    obtain ⟨text, htext, hrun⟩ := hkey h
    split_ifs at hrun with hactive
    · obtain ⟨hafter, rfl, hentry⟩ := hset htext hrun
      refine ⟨hafter, by rw [IndexCall.Answers, hactive], hentry.trans (funext fun k' => ?_)⟩
      rw [IndexCall.apply]
      split_ifs with hk
      · rw [hk, IndexEntry.deleted, if_pos hactive]
      · rfl
    · obtain ⟨rfl, rfl⟩ := hpure hrun
      refine ⟨hvalid, by rw [IndexCall.Answers, Bool.eq_false_of_not_eq_true hactive],
        funext fun k' => ?_⟩
      rw [IndexCall.apply]
      split_ifs with hk
      · rw [hk, IndexEntry.deleted, if_neg hactive]
      · rfl
  | activeKeys ns =>
    obtain ⟨text, t, hlift, hrun⟩ := Stateful.bind_eq_ok.mp h
    obtain ⟨htext, rfl⟩ := Prod.mk.inj hlift
    obtain ⟨keys, t, hselect, hreturn⟩ := Stateful.bind_eq_ok.mp hrun
    obtain ⟨rfl, rfl⟩ := hpure hreturn
    obtain ⟨keys', hkeys, hspec⟩ := selectActiveKeys_spec htext hvalid
    rw [hkeys] at hselect
    obtain ⟨hsame, rfl⟩ := Prod.mk.inj hselect
    exact ⟨hvalid, ⟨keys', congrArg _ (Except.ok.inj hsame).symm, hspec⟩, rfl⟩
  | clearNamespace ns =>
    obtain ⟨text, t, hlift, hrun⟩ := Stateful.bind_eq_ok.mp h
    obtain ⟨htext, rfl⟩ := Prod.mk.inj hlift
    obtain ⟨count, t, hclear, hreturn⟩ := Stateful.bind_eq_ok.mp hrun
    obtain ⟨rfl, rfl⟩ := hpure hreturn
    have hclears : ∀ {k : NativeKey} {text' : Str}, namespaceText k.1 = .ok text' →
        decide (text' = text) = decide (k.1 = ns) := by
      intro k text' h'
      rw [decide_eq_decide]
      constructor
      · rintro rfl
        exact namespaceText_inj h' htext
      · intro hns
        exact Except.ok.inj (h'.symm.trans (hns ▸ htext))
    obtain ⟨hafter, ⟨keys, rfl, hkeys⟩, hentry⟩ := clearRows_spec hclears hvalid hclear
    refine ⟨hafter, ⟨keys, rfl, hkeys⟩, hentry.trans (funext fun k => ?_)⟩
    simp [IndexCall.apply]
  | clearAll =>
    obtain ⟨count, t, hclear, hreturn⟩ := Stateful.bind_eq_ok.mp h
    obtain ⟨rfl, rfl⟩ := hpure hreturn
    have hclears : ∀ {k : NativeKey} {text : Str}, namespaceText k.1 = .ok text → true = true :=
      fun _ => rfl
    obtain ⟨hafter, ⟨keys, rfl, hkeys⟩, hentry⟩ :=
      @clearRows_spec _ (fun _ => true) hclears _ _ _ hvalid hclear
    refine ⟨hafter, ⟨keys, rfl, hkeys⟩, hentry.trans (funext fun k => ?_)⟩
    simp [IndexCall.apply]

/-- `SQLiteActiveKeyIndex`, over the contents of its table. -/
def sqliteIndex : IndexImplementation SqlTable where
  empty := Dict.empty
  call c := transaction (callTable c)
  entry := tableEntry
  Valid := TableValid
  valid_empty := by
    intro i hi
    cases hi
  entry_empty k := by
    cases h : namespaceText k.1 with
    | error e => exact tableEntry_of_namespaceText_error h _
    | ok text => exact tableEntry_of_namespaceText h _
  call_cases := by
    intro table c hvalid
    cases h : callTable c table with
    | mk result after =>
      cases result with
      | ok answer =>
        obtain ⟨hafter, hanswer, hentry⟩ := callTable_eq_ok hvalid h
        exact .inl ⟨answer, after, by rw [transaction, h], hafter, hanswer, hentry⟩
      | error e => exact .inr ⟨translateLocked e, by rw [transaction, h]⟩

end OnceMesh
