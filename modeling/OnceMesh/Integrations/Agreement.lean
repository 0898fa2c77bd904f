import OnceMesh.Integrations.Generations
import OnceMesh.Python.Stateful.Finally

/-!
# The three indexes agree

What the calls of an index answer is determined by its entries (`IndexImplementation.result_eq`),
unless the index refuses a call that another accepts. The indexes in a file and in a database refuse
texts that are not valid Unicode, and generations they have no room for; the database also refuses a
namespace with an empty part where the others find nothing under it. Within these limits the three
indexes give the same results in every run (`SameEntries.results`), but that the database raises
another exception than a publisher which says that a database is locked (`translateLocked`).
-/

namespace OnceMesh

open Python

/-! ### What a call raises -/

namespace IndexCall

/-- What every index checks: the key, and then, for a publication, the publisher. -/
def check (c : IndexCall) (entry : NativeKey → IndexEntry) : Except PyError Unit := do
  c.validate
  match c with
  | publishAndActivate k publicationId publisher =>
    publisher (entry k).nextGeneration publicationId.hex
  | _ => .ok ()

/-- The namespace and the key are valid Unicode, and a namespace on its own has no empty part. -/
def Encodable : IndexCall → Prop
  | generation k | isActive k | activeRevision k | preparePut k | activate k
  | publishAndActivate k _ _ | delete k => (∀ part ∈ k.1, Clean part) ∧ Clean k.2
  | activeKeys ns | clearNamespace ns => (∀ part ∈ ns, part ≠ []) ∧ ∀ part ∈ ns, Clean part
  | clearAll => True

/-- The entries determine the answer. -/
theorem Answers.unique {c : IndexCall} {entry : NativeKey → IndexEntry} {a b : IndexAnswer}
    (ha : c.Answers entry a) (hb : c.Answers entry b) : a = b := by
  cases c with
  | generation _ | isActive _ | activeRevision _ | preparePut _ | activate _ | delete _ =>
    exact ha.trans hb.symm
  | publishAndActivate _ _ _ => exact ha.2.trans hb.2.symm
  | activeKeys ns =>
    obtain ⟨keys, rfl, hsorted, hkeys⟩ := ha
    obtain ⟨keys', rfl, hsorted', hkeys'⟩ := hb
    have hmem : ∀ key, key ∈ keys ↔ key ∈ keys' := fun key => (hkeys key).trans (hkeys' key).symm
    have hperm : keys.Perm keys' := (List.perm_ext_iff_of_nodup
      (hsorted.imp ne_of_lt) (hsorted'.imp ne_of_lt)).mpr hmem
    rw [hperm.eq_of_pairwise
      (fun _ _ _ _ h h' => absurd (h.trans h') (lt_irrefl _)) hsorted hsorted']
  | clearNamespace _ | clearAll =>
    obtain ⟨keys, rfl, hnodup, hkeys⟩ := ha
    obtain ⟨keys', rfl, hnodup', hkeys'⟩ := hb
    have hmem : ∀ k, k ∈ keys ↔ k ∈ keys' := fun k => (hkeys k).trans (hkeys' k).symm
    rw [((List.perm_ext_iff_of_nodup hnodup hnodup').mpr hmem).length_eq]

end IndexCall

theorem mapError_id {ε α : Type} (x : Except ε α) : x.mapError id = x := by
  cases x <;> rfl

theorem isOk_mapError {ε ε' α : Type} (x : Except ε α) (f : ε → ε') :
    (x.mapError f).isOk = x.isOk := by
  cases x <;> rfl

namespace IndexImplementation

variable {β γ : Type}

/-- The call raises what every index checks, up to a translation of the exceptions, and else
returns. -/
def Accepts (I : IndexImplementation β) (translate : PyError → PyError) (b : β) (c : IndexCall) :
    Prop :=
  match c.check (I.entry b) with
  | .ok () => (I.call c b).1.isOk = true
  | .error e => (I.call c b).1 = .error (translate e)

variable {translate : PyError → PyError}

/-- A call that both indexes accept has the same result over the same entries, up to the
translation. -/
theorem result_eq {I : IndexImplementation β} {J : IndexImplementation γ} {b : β} {b' : γ}
    (hb : I.Valid b) (hb' : J.Valid b') {c : IndexCall} (hI : I.Accepts translate b c)
    (hJ : J.Accepts id b' c) (hentry : I.entry b = J.entry b') :
    (I.call c b).1 = (J.call c b').1.mapError translate := by
  unfold Accepts at hI hJ
  rw [← hentry] at hJ
  split at hI
  · next hcheck =>
    rw [hcheck] at hJ
    rcases I.call_cases c hb with ⟨a, _, hcall, -, hanswer, -⟩ | ⟨_, hcall⟩
    · rcases J.call_cases c hb' with ⟨a', _, hcall', -, hanswer', -⟩ | ⟨_, hcall'⟩
      · rw [hcall, hcall', hanswer.unique (hentry ▸ hanswer')]
        rfl
      · rw [hcall'] at hJ
        cases hJ
    · rw [hcall] at hI
      cases hI
  · next e hcheck =>
    rw [hcheck] at hJ
    rw [hI, hJ]
    rfl

/-- The entries after a call that both indexes accept are the same. -/
theorem entry_call_eq {I : IndexImplementation β} {J : IndexImplementation γ} {b : β} {b' : γ}
    (hb : I.Valid b) (hb' : J.Valid b') {c : IndexCall} (hI : I.Accepts translate b c)
    (hJ : J.Accepts id b' c) (hentry : I.entry b = J.entry b') :
    I.entry (I.call c b).2 = J.entry (J.call c b').2 := by
  rw [entry_call hb, entry_call hb', result_eq hb hb' hI hJ hentry, isOk_mapError, hentry]

end IndexImplementation

/-- What is checked: the key, and then the publisher. -/
theorem IndexImplementation.accepts_of {β : Type} {I : IndexImplementation β}
    {translate : PyError → PyError} {b : β} {c : IndexCall}
    (hinvalid : ∀ {e}, c.validate = .error e → (I.call c b).1 = .error (translate e))
    (hpublisher : c.validate = .ok () → ∀ {k publicationId publisher e},
      c = .publishAndActivate k publicationId publisher →
      publisher (I.entry b k).nextGeneration publicationId.hex = .error e →
      (I.call c b).1 = .error (translate e))
    (hreturns : c.validate = .ok () → c.check (I.entry b) = .ok () → (I.call c b).1.isOk = true) :
    I.Accepts translate b c := by
  unfold Accepts
  split
  · next h => exact hreturns (Except.check_eq_ok.mp h).1 h
  · next e h =>
    rcases Except.bind_eq_error.mp h with hvalidate | ⟨u, hvalidate, hrest⟩
    · exact hinvalid hvalidate
    · split at hrest
      · exact hpublisher hvalidate rfl hrest
      · cases hrest

/-! ### The index in memory -/

namespace MemoryEntries

theorem call_of_publisher_error {entries : MemoryEntries} {k : NativeKey}
    {publicationId : PublicationId} {publisher : ℕ → Str → Except PyError Unit} {e : PyError}
    (h : publisher (entries.entry k).nextGeneration publicationId.hex = .error e) :
    entries.call (.publishAndActivate k publicationId publisher) = .error e := by
  rw [call, publishAndActivate, h]
  rfl

theorem exists_call {entries : MemoryEntries} {c : IndexCall}
    (h : c.check entries.entry = .ok ()) :
    ∃ answer after, entries.call c = .ok (answer, after) := by
  cases c with
  | publishAndActivate k publicationId publisher =>
    have hpublisher : publisher (entries.entry k).nextGeneration publicationId.hex = .ok () :=
      (Except.check_eq_ok.mp h).2
    have hreturn : entries.publishAndActivate k publicationId publisher = .ok
        ((entries.entry k).nextGeneration,
          Dict.set entries k ⟨(entries.entry k).nextGeneration, true, some publicationId.hex⟩) := by
      rw [publishAndActivate, hpublisher]
      rfl
    exact ⟨_, _, by rw [call, hreturn]; rfl⟩
  | _ => exact ⟨_, _, rfl⟩

end MemoryEntries

/-- The index in memory refuses nothing else. -/
theorem memoryIndex_accepts (entries : MemoryEntries) (c : IndexCall) :
    memoryIndex.Accepts id entries c := by
  have hcall : ∀ {result}, (c.validate >>= fun _ => entries.call c) = result →
      (memoryIndex.call c entries).1 = result.map Prod.fst := by
    rintro result rfl
    dsimp only [memoryIndex]
    cases c.validate >>= fun _ => entries.call c <;> rfl
  apply IndexImplementation.accepts_of
  · intro e h
    rw [hcall rfl, h]
    rfl
  · rintro hvalidate k publicationId publisher e rfl hpublisher
    rw [hcall rfl, hvalidate, Except.ok_bind, MemoryEntries.call_of_publisher_error hpublisher]
    rfl
  · intro hvalidate hcheck
    obtain ⟨answer, after, hreturn⟩ := MemoryEntries.exists_call hcheck
    rw [hcall rfl, hvalidate, Except.ok_bind, hreturn]
    rfl

/-! ### The database -/

/-- What a call of one key does after its checks. -/
theorem withEntry_apply {k : NativeKey} (hvalidate : validateNative k = .ok ())
    (hclean : (∀ part ∈ k.1, Clean part) ∧ Clean k.2)
    {f : Str → IndexEntry → Stateful PyError SqlTable IndexAnswer} {table : SqlTable} :
    ∃ text, namespaceText k.1 = .ok text ∧
      withEntry k f table = f text (tableEntry table k) table := by
  obtain ⟨text, htext⟩ : ∃ text, namespaceText k.1 = .ok text :=
    ⟨_, namespaceText_eq_ok.mpr ⟨⟨(validateNative_eq_ok.mp hvalidate).1, hclean.1⟩, rfl⟩⟩
  refine ⟨text, htext, ?_⟩
  have hselect : selectEntry text k.2 table = (.ok (tableEntry table k), table) := by
    rw [Stateful.eq_ok_iff_returns]
    exact (returns_selectEntry htext).mpr ⟨hclean.2, rfl, rfl⟩
  rw [withEntry, Stateful.bind_liftM_apply, hvalidate]
  show (liftM (namespaceText k.1) >>= _ : Stateful PyError SqlTable IndexAnswer) table = _
  rw [Stateful.bind_liftM_apply, htext]
  exact Stateful.bind_apply_of_ok hselect

/-- A row that fits is written. -/
theorem upsert_apply {k : NativeKey} {text : Str} (h : namespaceText k.1 = .ok text)
    (hkey : Clean k.2) {generation : ℕ} (hgeneration : generation < 2 ^ 63) {active : Bool}
    {publicationId : Option Str} (hid : publicationId.all isPublicationId = true)
    (answer : IndexAnswer) (table : SqlTable) :
    ((upsert text k.2 generation active publicationId >>= fun _ => pure answer) table).1.isOk =
      true := by
  have hreturns : Stateful.Returns (upsert text k.2 generation active publicationId) table
      fun _ _ => True :=
    returns_upsert.mpr ⟨clean_namespaceText h, hkey, hgeneration, hid, trivial⟩
  obtain ⟨u, after, hrun, -⟩ := hreturns
  rw [Stateful.bind_apply_of_ok hrun]
  rfl

/-- The publication identifier of a row is one. -/
theorem TableValid.publicationId {table : SqlTable} (h : TableValid table) (k : NativeKey) :
    (tableEntry table k).publicationId.all isPublicationId = true := by
  cases htext : namespaceText k.1 with
  | error e =>
    rw [tableEntry_of_namespaceText_error htext]
    rfl
  | ok text =>
    rw [tableEntry_of_namespaceText htext]
    cases hget : table.get? (text, k.2) with
    | none => rfl
    | some row => exact (h _ (Dict.mem_entries_iff.mpr hget)).publicationId

/-- The database accepts valid Unicode while the generations have 64 bits. -/
theorem sqliteIndex_accepts {table : SqlTable} (hvalid : TableValid table) {c : IndexCall}
    (hclean : c.Encodable) (hbound : c.check (tableEntry table) = .ok () →
      ∀ k, (c.apply (tableEntry table) k).generation < 2 ^ 63) :
    sqliteIndex.Accepts translateLocked table c := by
  have hcall : (sqliteIndex.call c table).1 = (callTable c table).1.mapError translateLocked := by
    show (transaction (callTable c) table).1 = _
    rw [transaction]
    cases callTable c table with
    | mk result after => cases result <;> rfl
  apply IndexImplementation.accepts_of
  · intro e h
    rw [hcall]
    cases c with
    | activeKeys _ | clearNamespace _ | clearAll => cases h
    | _ k =>
      rw [callTable, withEntry, Stateful.bind_liftM_apply, show validateNative k = _ from h]
      rfl
  · rintro hvalidate k publicationId publisher e rfl hpublisher
    change publisher (tableEntry table k).nextGeneration publicationId.hex = _ at hpublisher
    obtain ⟨text, htext, hrun⟩ := withEntry_apply hvalidate hclean
    rw [hcall, callTable, hrun, Stateful.bind_liftM_apply, hpublisher]
    rfl
  · intro hvalidate hcheck
    replace hbound := hbound hcheck
    rw [hcall, isOk_mapError]
    cases c with
    | generation k | isActive k | activeRevision k =>
      obtain ⟨text, -, hrun⟩ := withEntry_apply hvalidate hclean
      rw [callTable, hrun]
      rfl
    | preparePut k =>
      obtain ⟨text, htext, hrun⟩ := withEntry_apply hvalidate hclean
      have hlt := hbound k
      rw [IndexCall.apply, if_pos rfl] at hlt
      rw [callTable, hrun]
      exact upsert_apply htext hclean.2 hlt rfl _ table
    | activate k =>
      obtain ⟨text, htext, hrun⟩ := withEntry_apply hvalidate hclean
      have hlt := hbound k
      rw [IndexCall.apply, if_pos rfl] at hlt
      rw [callTable, hrun]
      exact upsert_apply htext hclean.2 hlt (hvalid.publicationId k) _ table
    | publishAndActivate k publicationId publisher =>
      obtain ⟨text, htext, hrun⟩ := withEntry_apply hvalidate hclean
      have hlt := hbound k
      rw [IndexCall.apply, if_pos rfl] at hlt
      have hpublisher : publisher (tableEntry table k).nextGeneration publicationId.hex = .ok () :=
        (Except.check_eq_ok.mp hcheck).2
      have hid : (some publicationId.hex).all isPublicationId = true := publicationId.valid
      rw [callTable, hrun, Stateful.bind_liftM_apply, hpublisher]
      exact upsert_apply htext hclean.2 hlt hid _ table
    | delete k =>
      obtain ⟨text, htext, hrun⟩ := withEntry_apply hvalidate hclean
      have hlt := hbound k
      rw [IndexCall.apply, if_pos rfl, IndexEntry.deleted] at hlt
      rw [callTable, hrun]
      split_ifs at hlt ⊢
      · exact upsert_apply htext hclean.2 hlt rfl _ table
      · rfl
    | activeKeys ns | clearNamespace ns =>
      have htext := namespaceText_eq_ok.mpr ⟨hclean, rfl⟩
      rw [callTable, Stateful.bind_liftM_apply, htext]
      rfl
    | clearAll => rfl

/-- What a query raises is not translated. -/
theorem sqliteIndex_accepts_of_reads {table : SqlTable} {c : IndexCall} (hreads : c.writes = false)
    (h : sqliteIndex.Accepts translateLocked table c) : sqliteIndex.Accepts id table c := by
  have hkey : ∀ k : NativeKey, RaisesOnlyValueError (validateNative k) := fun k =>
    .bind (raisesOnly_raiseIf _ _) fun _ _ => raisesOnly_raiseIf _ _
  have hcheck : RaisesOnlyValueError (c.check (tableEntry table)) := by
    cases c with
    | generation k | isActive k | activeRevision k => exact .bind (hkey k) fun _ _ => .ok ()
    | activeKeys _ => exact .ok ()
    | _ => cases hreads
  unfold IndexImplementation.Accepts at h ⊢
  split at h
  · exact h
  · next e he =>
    have hvalue : e.isValueError = true := hcheck e he
    rw [h]
    cases e with
    | sqliteOperationalError _ _ => cases hvalue
    | _ => rfl

/-! ### The file -/

/-- The key is valid Unicode. -/
def KeyClean (k : NativeKey) : Prop := (∀ part ∈ k.1, Clean part) ∧ Clean k.2

/-- The file is read, and its keys are valid Unicode. -/
def FileValid (file : File) : Prop :=
  ∃ entries, readIndex file = .ok entries ∧ ∀ i ∈ entries.entries, KeyClean i.1

theorem clean_of_isPublicationId {p : Str} (h : isPublicationId p = true) : Clean p := by
  intro c hc
  rw [isPublicationId, Bool.and_eq_true, List.all_eq_true] at h
  have hhex := of_decide_eq_true (h.2 c hc)
  apply isSurrogate_of_lt
  omega

/-- The keys after a call are old keys, or the key of the call. -/
theorem keyClean_call {entries after : MemoryEntries} {c : IndexCall} {answer : IndexAnswer}
    (h : ∀ i ∈ entries.entries, KeyClean i.1) (hclean : c.Encodable)
    (hcall : entries.call c = .ok (answer, after)) : ∀ i ∈ after.entries, KeyClean i.1 := by
  have hset : ∀ {k e}, KeyClean k → ∀ i ∈ (Dict.set entries k e).entries, KeyClean i.1 := by
    intro k e hk i hi
    rcases mem_setItem hi with hold | rfl
    · exact h i hold
    · exact hk
  have hclear : ∀ selected, ∀ i ∈ (entries.clear selected).2.entries, KeyClean i.1 := by
    intro selected i hi
    obtain ⟨j, hj, rfl⟩ := List.mem_map.mp hi
    exact h j hj
  cases c with
  | generation k | isActive k | activeRevision k | activeKeys ns =>
    obtain ⟨-, rfl⟩ := Prod.mk.inj (Except.ok.inj hcall)
    exact h
  | preparePut k | activate k =>
    obtain ⟨-, rfl⟩ := Prod.mk.inj (Except.ok.inj hcall)
    exact hset hclean
  | publishAndActivate k publicationId publisher =>
    obtain ⟨⟨generation, after'⟩, hpublish, hreturn⟩ := Except.bind_eq_ok.mp hcall
    obtain ⟨-, hpure⟩ := Except.check_eq_ok.mp hpublish
    obtain ⟨rfl, rfl⟩ := Prod.mk.inj (Except.ok.inj hpure)
    obtain ⟨-, rfl⟩ := Prod.mk.inj (Except.ok.inj hreturn)
    exact hset hclean
  | delete k =>
    obtain ⟨-, rfl⟩ := Prod.mk.inj (Except.ok.inj hcall)
    unfold MemoryEntries.delete
    dsimp only
    split_ifs
    · exact hset hclean
    · exact h
  | clearNamespace ns | clearAll =>
    obtain ⟨-, rfl⟩ := Prod.mk.inj (Except.ok.inj hcall)
    exact hclear _

/-- Entries are written if their keys are valid Unicode and their generations are safe integers. -/
theorem exists_writeIndex {entries : MemoryEntries} (hvalid : EntriesValid entries)
    (hclean : ∀ i ∈ entries.entries, KeyClean i.1)
    (hbound : ∀ i ∈ entries.entries, i.2.generation ≤ 2 ^ 53 - 1) :
    ∃ data, writeIndex entries = .ok data := by
  have hperm : (sortedEntries entries).Perm entries.entries := List.perm_insertionSort _ _
  have hitem : ∀ i ∈ entries.entries, InProfile (indexEntryValue i) := by
    intro i hi
    have hns : InProfile (.list (i.1.1.map .str)) := inProfile_namespace.mpr (hclean i hi).1
    have hkey : InProfile (.str i.1.2) := .str (hclean i hi).2
    have hgeneration : InProfile (.int i.2.generation) := by
      have hle := hbound i hi
      exact .int (by omega) (by omega)
    have hid : InProfile (i.2.publicationId.elim .none .str) := by
      cases hp : i.2.publicationId with
      | none => exact .none
      | some p => exact .str (clean_of_isPublicationId ((hvalid i hi).publicationId p hp))
    refine .dict ?_ ?_
    · intro member hmember
      simp only [List.mem_cons, List.not_mem_nil, or_false] at hmember
      rcases hmember with rfl | rfl | rfl | rfl | rfl <;> exact clean_lit _
    · intro member hmember
      simp only [List.mem_cons, List.not_mem_nil, or_false] at hmember
      rcases hmember with rfl | rfl | rfl | rfl | rfl
      · exact hns
      · exact hkey
      · exact hgeneration
      · exact .bool _
      · exact hid
  have hitems : InProfile (.list ((sortedEntries entries).map indexEntryValue)) := by
    refine .list fun v hv => ?_
    obtain ⟨i, hi, rfl⟩ := List.mem_map.mp hv
    exact hitem i (hperm.mem_iff.mp hi)
  refine ⟨_, canonicalJson_of_inProfile (.dict ?_ ?_)⟩
  · intro member hmember
    simp only [List.mem_cons, List.not_mem_nil, or_false] at hmember
    rcases hmember with rfl | rfl <;> exact clean_lit _
  · intro member hmember
    simp only [List.mem_cons, List.not_mem_nil, or_false] at hmember
    rcases hmember with rfl | rfl
    · exact .int (by norm_num) (by norm_num)
    · exact hitems

theorem fileEntry_of_readIndex {file : File} {entries : MemoryEntries}
    (h : readIndex file = .ok entries) : fileEntry file = entries.entry := by
  funext k
  rw [fileEntry, h]

/-- A call that returns has written the new entries. -/
theorem exists_callIndexFile {file : File} {c : IndexCall} (hvalid : FileValid file)
    (hclean : c.Encodable) (hbound : ∀ k, (c.apply (fileEntry file) k).generation ≤ 2 ^ 53 - 1)
    (hvalidate : c.validate = .ok ()) (hcheck : c.check (fileEntry file) = .ok ()) :
    ∃ answer after, callIndexFile c file = .ok (answer, after) ∧ FileValid after := by
  obtain ⟨entries, hread, hkeys⟩ := hvalid
  rw [fileEntry_of_readIndex hread] at hbound hcheck
  obtain ⟨answer, after, hcall⟩ := MemoryEntries.exists_call hcheck
  have hentries := (entriesValid_of_readIndex hread).call hvalidate hcall
  have hafter : ∀ i ∈ after.entries, i.2.generation ≤ 2 ^ 53 - 1 := by
    intro i hi
    have hentry : after.entry i.1 = i.2 := by
      rw [MemoryEntries.entry, Dict.mem_entries_iff.mp hi, Option.getD_some]
    rw [← hentry, (MemoryEntries.call_spec hcall).2]
    exact hbound i.1
  obtain ⟨data, hdata⟩ := exists_writeIndex hentries (keyClean_call hkeys hclean hcall) hafter
  rw [callIndexFile, hvalidate, Except.ok_bind, hread, Except.ok_bind, hcall, Except.ok_bind]
  dsimp only
  split_ifs
  · obtain ⟨written, hwritten, hperm⟩ := readIndex_of_writeIndex hentries hdata
    refine ⟨answer, some data, by rw [hdata]; rfl, written, hwritten, fun i hi => ?_⟩
    exact keyClean_call hkeys hclean hcall i (hperm.mem_iff.mp hi)
  · exact ⟨answer, file, rfl, entries, hread, hkeys⟩

theorem filesystemIndex_call (c : IndexCall) (file : File) :
    (filesystemIndex.call c file).1 = (callIndexFile c file).map Prod.fst := by
  dsimp only [filesystemIndex]
  cases callIndexFile c file <;> rfl

/-- The file accepts valid Unicode while the generations are safe integers. -/
theorem filesystemIndex_accepts {file : File} (hvalid : FileValid file) {c : IndexCall}
    (hclean : c.Encodable) (hbound : c.check (fileEntry file) = .ok () →
      ∀ k, (c.apply (fileEntry file) k).generation ≤ 2 ^ 53 - 1) :
    filesystemIndex.Accepts id file c := by
  apply IndexImplementation.accepts_of
  · intro e h
    rw [filesystemIndex_call, callIndexFile, h]
    rfl
  · rintro hvalidate k publicationId publisher e rfl hpublisher
    obtain ⟨entries, hread, -⟩ := hvalid
    change publisher (fileEntry file k).nextGeneration publicationId.hex = _ at hpublisher
    rw [fileEntry_of_readIndex hread] at hpublisher
    rw [filesystemIndex_call, callIndexFile, hvalidate, Except.ok_bind, hread, Except.ok_bind,
      MemoryEntries.call_of_publisher_error hpublisher]
    rfl
  · intro hvalidate hcheck
    obtain ⟨answer, after, hreturn, -⟩ :=
      exists_callIndexFile hvalid hclean (hbound hcheck) hvalidate hcheck
    rw [filesystemIndex_call, hreturn]
    rfl

/-- A file that is read accepts the calls that only read. -/
theorem filesystemIndex_accepts_of_reads {file : File} {entries : MemoryEntries}
    (hread : readIndex file = .ok entries) {c : IndexCall} (hreads : c.writes = false) :
    filesystemIndex.Accepts id file c := by
  apply IndexImplementation.accepts_of
  · intro e h
    rw [filesystemIndex_call, callIndexFile, h]
    rfl
  · rintro - k publicationId publisher e rfl -
    cases hreads
  · intro hvalidate hcheck
    change c.check (fileEntry file) = _ at hcheck
    rw [fileEntry_of_readIndex hread] at hcheck
    obtain ⟨answer, after, hcall⟩ := MemoryEntries.exists_call hcheck
    rw [filesystemIndex_call, callIndexFile, hvalidate, Except.ok_bind, hread, Except.ok_bind,
      hcall, Except.ok_bind]
    dsimp only
    rw [hreads]
    rfl

/-- The file stays valid. -/
theorem fileValid_call {file : File} (hvalid : FileValid file) {c : IndexCall}
    (hclean : c.Encodable) (hbound : c.check (fileEntry file) = .ok () →
      ∀ k, (c.apply (fileEntry file) k).generation ≤ 2 ^ 53 - 1) :
    FileValid (filesystemIndex.call c file).2 := by
  dsimp only [filesystemIndex]
  cases h : callIndexFile c file with
  | error e => exact hvalid
  | ok r =>
    cases hcheck : c.check (fileEntry file) with
    | ok u =>
      obtain ⟨answer, after, hreturn, hafter⟩ :=
        exists_callIndexFile hvalid hclean (hbound hcheck) (Except.check_eq_ok.mp hcheck).1 hcheck
      rw [Except.ok.inj (h.symm.trans hreturn)]
      exact hafter
    | error e =>
      -- a call that fails a check does not return
      have hraises := filesystemIndex_accepts hvalid hclean hbound
      unfold IndexImplementation.Accepts at hraises
      rw [show c.check (filesystemIndex.entry file) = _ from hcheck, filesystemIndex_call,
        h] at hraises
      cases hraises

/-! ### Runs -/

/-- The results of calls, one after the other. -/
def IndexImplementation.results {β : Type} (I : IndexImplementation β) :
    β → List IndexCall → List (Except PyError IndexAnswer)
  | _, [] => []
  | b, c :: calls => (I.call c b).1 :: I.results (I.call c b).2 calls

/-- The three indexes hold the same entries, and the file is one they are written to. -/
structure SameEntries (entries : MemoryEntries) (file : File) (table : SqlTable) : Prop where
  file_eq : fileEntry file = entries.entry
  table_eq : tableEntry table = entries.entry
  fileValid : FileValid file
  tableValid : TableValid table

/-- No generation is past the safe integers. -/
def SafeGenerations (entries : MemoryEntries) : Prop :=
  ∀ k, (entries.entry k).generation ≤ 2 ^ 53 - 1

/-- A call gives the same results, and the same entries after it. -/
theorem SameEntries.call {entries : MemoryEntries} {file : File} {table : SqlTable}
    (h : SameEntries entries file table) {c : IndexCall} (hclean : c.Encodable)
    (hsafe : SafeGenerations (memoryIndex.call c entries).2) :
    (filesystemIndex.call c file).1 = (memoryIndex.call c entries).1 ∧
      (sqliteIndex.call c table).1 = (memoryIndex.call c entries).1.mapError translateLocked ∧
      SameEntries (memoryIndex.call c entries).2 (filesystemIndex.call c file).2
        (sqliteIndex.call c table).2 := by
  have hmemory := memoryIndex_accepts entries c
  have hbound : c.check entries.entry = .ok () →
      ∀ k, (c.apply entries.entry k).generation ≤ 2 ^ 53 - 1 := by
    intro hcheck k
    have hreturns : (memoryIndex.call c entries).1.isOk = true := by
      unfold IndexImplementation.Accepts at hmemory
      rwa [show c.check (memoryIndex.entry entries) = _ from hcheck] at hmemory
    have hentry : MemoryEntries.entry (memoryIndex.call c entries).2 = c.apply entries.entry := by
      have hcall := @IndexImplementation.entry_call _ memoryIndex entries trivial c
      rwa [hreturns, if_pos rfl] at hcall
    rw [← hentry]
    exact hsafe k
  have hfile : filesystemIndex.Accepts id file c :=
    filesystemIndex_accepts h.fileValid hclean (by rwa [h.file_eq])
  have htable : sqliteIndex.Accepts translateLocked table c := by
    apply sqliteIndex_accepts h.tableValid hclean
    rw [h.table_eq]
    intro hcheck k
    have hle := hbound hcheck k
    omega
  refine ⟨?_, ?_, ?_, ?_, ?_, ?_⟩
  · have hresult := @IndexImplementation.result_eq _ _ id filesystemIndex memoryIndex file entries
      trivial trivial c hfile hmemory h.file_eq
    rw [hresult, mapError_id]
  · exact IndexImplementation.result_eq h.tableValid trivial htable hmemory h.table_eq
  · exact IndexImplementation.entry_call_eq (I := filesystemIndex) (J := memoryIndex)
      trivial trivial
      hfile hmemory h.file_eq
  · exact IndexImplementation.entry_call_eq (I := sqliteIndex) (J := memoryIndex) h.tableValid
      trivial htable hmemory h.table_eq
  · exact fileValid_call h.fileValid hclean (by rwa [h.file_eq])
  · exact IndexImplementation.valid_call (I := sqliteIndex) h.tableValid c

/-- The same entries stay the same in every run. -/
theorem SameEntries.results {entries : MemoryEntries} {file : File} {table : SqlTable}
    (h : SameEntries entries file table) {calls : List IndexCall}
    (hclean : ∀ c ∈ calls, c.Encodable)
    (hsafe : ∀ before, before <+: calls → SafeGenerations (memoryIndex.run entries before)) :
    filesystemIndex.results file calls = memoryIndex.results entries calls ∧
      sqliteIndex.results table calls =
        (memoryIndex.results entries calls).map (Except.mapError translateLocked) := by
  induction calls generalizing entries file table with
  | nil => exact ⟨rfl, rfl⟩
  | cons c calls ih =>
    rw [List.forall_mem_cons] at hclean
    have hfirst : SafeGenerations (memoryIndex.call c entries).2 :=
      hsafe [c] (List.cons_prefix_cons.mpr ⟨rfl, List.nil_prefix⟩)
    obtain ⟨hfile, htable, hsame⟩ := h.call hclean.1 hfirst
    obtain ⟨hfiles, htables⟩ := ih hsame hclean.2 fun before hbefore =>
      hsafe (c :: before) (List.cons_prefix_cons.mpr ⟨rfl, hbefore⟩)
    refine ⟨?_, ?_⟩
    · rw [IndexImplementation.results, IndexImplementation.results, hfile, hfiles]
    · rw [IndexImplementation.results, IndexImplementation.results, List.map_cons, htable, htables]

theorem sameEntries_empty :
    SameEntries memoryIndex.empty filesystemIndex.empty sqliteIndex.empty where
  file_eq := rfl
  table_eq := funext sqliteIndex.entry_empty
  fileValid := ⟨Dict.empty, rfl, by rintro i ⟨⟩⟩
  tableValid := sqliteIndex.valid_empty

/-- The three indexes give the same results in every run within their limits, but that the database
translates what a publisher raises, and a call that raises changes none of them. -/
theorem indexes_agree :
    (∀ calls : List IndexCall, (∀ c ∈ calls, c.Encodable) →
      (∀ before, before <+: calls → SafeGenerations (memoryIndex.run memoryIndex.empty before)) →
      filesystemIndex.results filesystemIndex.empty calls =
          memoryIndex.results memoryIndex.empty calls ∧
        sqliteIndex.results sqliteIndex.empty calls =
          (memoryIndex.results memoryIndex.empty calls).map (Except.mapError translateLocked)) ∧
    ∀ (calls : List IndexCall) (c : IndexCall) (e : PyError),
      ((memoryIndex.call c (memoryIndex.run memoryIndex.empty calls)).1 = .error e →
        (memoryIndex.call c (memoryIndex.run memoryIndex.empty calls)).2 =
          memoryIndex.run memoryIndex.empty calls) ∧
      ((filesystemIndex.call c (filesystemIndex.run filesystemIndex.empty calls)).1 = .error e →
        (filesystemIndex.call c (filesystemIndex.run filesystemIndex.empty calls)).2 =
          filesystemIndex.run filesystemIndex.empty calls) ∧
      ((sqliteIndex.call c (sqliteIndex.run sqliteIndex.empty calls)).1 = .error e →
        (sqliteIndex.call c (sqliteIndex.run sqliteIndex.empty calls)).2 =
          sqliteIndex.run sqliteIndex.empty calls) := by
  have hraises : ∀ {β : Type} {I : IndexImplementation β} (calls : List IndexCall) (c : IndexCall)
      {e : PyError}, (I.call c (I.run I.empty calls)).1 = .error e →
        (I.call c (I.run I.empty calls)).2 = I.run I.empty calls := by
    intro β I calls c e h
    exact I.revisionsAdvance.raises I.valid_empty calls c (Prod.ext h rfl)
  refine ⟨fun calls hclean hsafe => sameEntries_empty.results hclean hsafe, fun calls c e => ?_⟩
  exact ⟨hraises calls c, hraises calls c, hraises calls c⟩

/-! ### Past the limits -/

/-- All the calls return. -/
theorem IndexImplementation.returned_eq_length {β : Type} {I : IndexImplementation β} {b : β}
    {calls : List IndexCall} (h : ∀ r ∈ I.results b calls, r.isOk = true) :
    I.returned b calls = calls.length := by
  induction calls generalizing b with
  | nil => rfl
  | cons c calls ih =>
    rw [results, List.forall_mem_cons] at h
    rw [returned, h.1, if_pos rfl, ih h.2, List.length_cons, Nat.add_comm]

/-- A document holds no generation past the safe integers. -/
theorem generation_le_of_writeIndex {entries : MemoryEntries} {data : Bytes}
    (h : writeIndex entries = .ok data) : SafeGenerations entries := by
  obtain ⟨hprofile, -⟩ := canonicalJson_eq_ok.mp h
  have hperm : (sortedEntries entries).Perm entries.entries := List.perm_insertionSort _ _
  intro k
  rw [MemoryEntries.entry]
  cases hget : entries.get? k with
  | none => exact Nat.zero_le _
  | some e =>
    have hmem := hperm.mem_iff.mpr (Dict.mem_entries_iff.mpr hget)
    have hitem : InProfile (indexEntryValue (k, e)) := by
      cases hprofile with
      | dict _ hvalues =>
        have hlist : InProfile (.list ((sortedEntries entries).map indexEntryValue)) :=
          hvalues (lit "entries", _) (List.mem_cons_of_mem _ List.mem_cons_self)
        cases hlist with
        | list helements => exact helements _ (List.mem_map_of_mem hmem)
    have hgeneration : InProfile (.int e.generation) := by
      cases hitem with
      | dict _ hmembers =>
        exact hmembers (lit "generation", .int e.generation) (by simp)
    cases hgeneration with
    | int hlow hhigh =>
      show e.generation ≤ _
      omega

/-- The generations in the file are safe after every run. -/
theorem generation_run_filesystemIndex (calls : List IndexCall) (k : NativeKey) :
    (fileEntry (filesystemIndex.run filesystemIndex.empty calls) k).generation ≤ 2 ^ 53 - 1 := by
  have hcall : ∀ {file : File} {c : IndexCall}, (∀ k, (fileEntry file k).generation ≤ 2 ^ 53 - 1) →
      ∀ k, (fileEntry (filesystemIndex.call c file).2 k).generation ≤ 2 ^ 53 - 1 := by
    intro file c hfile
    dsimp only [filesystemIndex]
    split
    · next answer after h =>
      obtain ⟨hvalidate, h⟩ := Except.check_eq_ok.mp h
      obtain ⟨entries, hread, h⟩ := Except.bind_eq_ok.mp h
      obtain ⟨⟨answer', entries'⟩, hcall, h⟩ := Except.bind_eq_ok.mp h
      dsimp only at h
      split_ifs at h
      · obtain ⟨data, hdata, hreturn⟩ := Except.bind_eq_ok.mp h
        obtain ⟨-, rfl⟩ := Prod.mk.inj (Except.ok.inj hreturn)
        have hvalid := (entriesValid_of_readIndex hread).call hvalidate hcall
        obtain ⟨written, hwritten, hperm⟩ := readIndex_of_writeIndex hvalid hdata
        rw [fileEntry_of_readIndex hwritten]
        intro k
        rw [MemoryEntries.entry_of_perm hperm]
        exact generation_le_of_writeIndex hdata k
      · obtain ⟨-, rfl⟩ := Prod.mk.inj (Except.ok.inj h)
        exact hfile
    · exact hfile
  have hrun : ∀ {calls : List IndexCall} {file : File},
      (∀ k, (fileEntry file k).generation ≤ 2 ^ 53 - 1) →
      ∀ k, (fileEntry (filesystemIndex.run file calls) k).generation ≤ 2 ^ 53 - 1 := by
    intro calls
    induction calls with
    | nil => exact fun h => h
    | cons c calls ih => exact fun h => ih (hcall h)
  exact hrun (fun _ => Nat.zero_le _) k

/-- A publication of one key. -/
def repeatedPublication : IndexCall :=
  .publishAndActivate ([lit "graph"], lit "node") ⟨List.replicate 32 0x30, by decide⟩
    fun _ _ => .ok ()

/-- The index in memory publishes as often as it is called. -/
theorem results_replicate_publication (n : ℕ) (entries : MemoryEntries) :
    ∀ r ∈ memoryIndex.results entries (List.replicate n repeatedPublication), r.isOk = true := by
  induction n generalizing entries with
  | zero =>
    intro r hr
    cases hr
  | succ n ih =>
    rw [List.replicate_succ, IndexImplementation.results, List.forall_mem_cons]
    refine ⟨memoryIndex_accepts entries repeatedPublication, ih _⟩

/-- Past the safe integers, the file refuses publications that the index in memory accepts. -/
theorem results_replicate_ne {n : ℕ} (h : 2 ^ 53 ≤ n) :
    filesystemIndex.results filesystemIndex.empty (List.replicate (n + 1) repeatedPublication) ≠
      memoryIndex.results memoryIndex.empty (List.replicate (n + 1) repeatedPublication) := by
  intro heq
  have hok := results_replicate_publication (n + 1) memoryIndex.empty
  rw [← heq, List.replicate_succ, IndexImplementation.results, List.forall_mem_cons] at hok
  obtain ⟨hfirst, hrest⟩ := hok
  -- the first publication makes the key active
  have hentry := @IndexImplementation.entry_call _ filesystemIndex filesystemIndex.empty trivial
    repeatedPublication
  rw [hfirst, if_pos rfl] at hentry
  have hactive : (filesystemIndex.entry (filesystemIndex.call repeatedPublication
      filesystemIndex.empty).2 ([lit "graph"], lit "node")).active = true := by
    rw [hentry]
    rfl
  have hgeneration := (filesystemIndex.revisionsAdvance).publications trivial
    (List.replicate n repeatedPublication) ([lit "graph"], lit "node")
    (fun c hc => ⟨_, _, List.eq_of_mem_replicate hc⟩) hactive
  rw [IndexImplementation.returned_eq_length hrest, List.length_replicate] at hgeneration
  have hbound := generation_run_filesystemIndex (List.replicate (n + 1) repeatedPublication)
    ([lit "graph"], lit "node")
  have hrun : filesystemIndex.run filesystemIndex.empty
      (List.replicate (n + 1) repeatedPublication) =
      filesystemIndex.run (filesystemIndex.call repeatedPublication filesystemIndex.empty).2
        (List.replicate n repeatedPublication) := by
    simp only [IndexImplementation.run, List.replicate_succ, List.foldl_cons]
  rw [hrun] at hbound
  change (filesystemIndex.entry _ _).generation ≤ _ at hbound
  omega

/-- A namespace with an empty part, and a generation past the safe integers. -/
theorem indexes_disagree :
    sqliteIndex.results sqliteIndex.empty [.activeKeys [[]]] ≠
        memoryIndex.results memoryIndex.empty [.activeKeys [[]]] ∧
      filesystemIndex.results filesystemIndex.empty
          (List.replicate (2 ^ 53 + 1) repeatedPublication) ≠
        memoryIndex.results memoryIndex.empty
          (List.replicate (2 ^ 53 + 1) repeatedPublication) := by
  refine ⟨?_, @results_replicate_ne (2 ^ 53) le_rfl⟩
  intro h
  have hraises : sqliteIndex.results sqliteIndex.empty [.activeKeys [[]]] =
    [raiseValueError "namespace must be a tuple of non-empty strings"] := rfl
  rw [hraises] at h
  cases h

end OnceMesh
