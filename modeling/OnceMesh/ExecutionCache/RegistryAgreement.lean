import OnceMesh.ExecutionCache.FilesystemEpochs

/-!
# Two epoch registries

The registry in memory and the registry in a file are given the same calls. As long as every call
fits, they answer alike and a rotation moves all the epochs it names or, when it raises, none. A
call does not fit when it names a valid namespace before an invalid one, since the registry in
memory then keeps what it has moved; when it takes an epoch past the integers that canonical JSON
writes; or when it asks for the epochs of an invalid namespace. These are the only differences
(`registriesSound_iff`).
-/

namespace OnceMesh

open Python

/-- A call of an epoch registry. -/
inductive RegistryCall where
  | epochs (ns : List Str)
  | rotateAll
  | rotateNamespaces (named : List (List Str))

namespace RegistryCall

/-- What the call does to a registry. -/
def rotate {β : Type} (registry : EpochRegistry β) : RegistryCall → Stateful PyError β Unit
  | epochs _ => pure ()
  | rotateAll => registry.rotateAll
  | rotateNamespaces named => registry.rotateNamespaces named

/-- The epochs of a namespace after the call, if the call returns. -/
def advance (ns : List Str) : RegistryCall → Epochs → Epochs
  | epochs _, e => e
  | rotateAll, e => (e.1 + 1, e.2)
  | rotateNamespaces named, e => (e.1, e.2 + named.count ns)

/-- The namespaces that the call names are text without surrogates. -/
def Clean : RegistryCall → Prop
  | epochs ns => ∀ part ∈ ns, OnceMesh.Clean part
  | rotateAll => True
  | rotateNamespaces named => ∀ ns ∈ named, ∀ part ∈ ns, OnceMesh.Clean part

end RegistryCall

/-- The two registries. -/
structure Registries where
  memory : MemoryEpochRegistry
  file : File

namespace Registries

/-- The registries after a call. -/
def next (s : Registries) (call : RegistryCall) : Registries :=
  ⟨(call.rotate memoryEpochRegistry s.memory).2, (call.rotate filesystemEpochRegistry s.file).2⟩

/-- The registries after some calls; the file does not exist at first. -/
def after (calls : List RegistryCall) : Registries := calls.foldl next ⟨.empty, none⟩

/-- The registries return the same epochs. -/
def SameEpochs (s : Registries) : Prop :=
  ∀ ns, validateNamespace ns = .ok () →
    filesystemEpochRegistry.epochs s.file ns = memoryEpochRegistry.epochs s.memory ns

/-- A call moves the epochs of every namespace when it returns, and no epoch when it raises. -/
def Atomic {β : Type} (registry : EpochRegistry β) (b : β) (call : RegistryCall) : Prop :=
  ∀ ns, validateNamespace ns = .ok () →
    registry.epochs (call.rotate registry b).2 ns =
      if (call.rotate registry b).1.isOk then call.advance ns <$> registry.epochs b ns
      else registry.epochs b ns

/-- The registries answer the call alike and atomically, and return the same epochs afterwards. -/
structure CallSound (s : Registries) (call : RegistryCall) : Prop where
  answer : ∀ ns, call = .epochs ns →
    filesystemEpochRegistry.epochs s.file ns = memoryEpochRegistry.epochs s.memory ns
  accepted : (call.rotate filesystemEpochRegistry s.file).1.isOk =
    (call.rotate memoryEpochRegistry s.memory).1.isOk
  memory : Atomic memoryEpochRegistry s.memory call
  file : Atomic filesystemEpochRegistry s.file call
  same : (s.next call).SameEpochs

/-- No epoch that the call moves goes past the integers of canonical JSON. -/
def Representable (s : Registries) : RegistryCall → Prop
  | .epochs _ => True
  | .rotateAll => (s.memory.globalEpoch : ℤ) + 1 ≤ maxSafeInteger
  | .rotateNamespaces named =>
    ∀ ns ∈ named, ((s.memory.epochs ns).2 + named.count ns : ℤ) ≤ maxSafeInteger

/-- The call names valid namespaces only, whose epochs can be written, or an invalid namespace
first. -/
def Fits (s : Registries) : RegistryCall → Prop
  | .epochs ns => validateNamespace ns = .ok ()
  | .rotateAll => s.Representable .rotateAll
  | .rotateNamespaces named =>
    (validateNamespaces named = .ok () ∧ s.Representable (.rotateNamespaces named)) ∨
      ∃ ns ∈ named.head?, validateNamespace ns ≠ .ok ()

end Registries

/-! ### The documents that are written -/

/-- A number is in the profile unless it is too large. -/
theorem inProfile_natCast {n : ℕ} : InProfile (.int n) ↔ (n : ℤ) ≤ maxSafeInteger := by
  constructor
  · intro h
    cases h with
    | int low high => exact high
  · intro h
    exact .int (by omega) h

/-- An entry is in the profile just if its namespace and its epoch are. -/
theorem inProfile_epochEntryValue {entry : List Str × ℕ} :
    InProfile (epochEntryValue entry) ↔
      (∀ part ∈ entry.1, Clean part) ∧ (entry.2 : ℤ) ≤ maxSafeInteger := by
  rw [← inProfile_natCast]
  constructor
  · intro h
    cases h with
    | dict _ hvalues =>
      rw [List.forall_mem_cons, List.forall_mem_singleton] at hvalues
      obtain ⟨hnamespace, hepoch⟩ := hvalues
      refine ⟨fun part hpart => ?_, hepoch⟩
      cases hnamespace with
      | list hparts =>
        cases hparts (.str part) (List.mem_map_of_mem hpart) with
        | str hclean => exact hclean
  · rintro ⟨hparts, hepoch⟩
    apply InProfile.dict
    · rw [List.forall_mem_cons, List.forall_mem_singleton]
      exact ⟨clean_lit _, clean_lit _⟩
    · rw [List.forall_mem_cons, List.forall_mem_singleton]
      refine ⟨.list fun v hv => ?_, hepoch⟩
      obtain ⟨part, hpart, rfl⟩ := List.mem_map.mp hv
      exact .str (hparts part hpart)

namespace EpochDocument

/-- What a document that can be written holds. -/
theorem inProfile_toValue_iff {document : EpochDocument} :
    InProfile document.toValue ↔ InProfile document.version ∧
      (document.globalEpoch : ℤ) ≤ maxSafeInteger ∧
      ∀ entry ∈ document.namespaces, (∀ part ∈ entry.1, Clean part) ∧
        (entry.2 : ℤ) ≤ maxSafeInteger := by
  rw [← inProfile_natCast]
  constructor
  · intro h
    cases h with
    | dict _ hvalues =>
      rw [List.forall_mem_cons, List.forall_mem_cons, List.forall_mem_singleton] at hvalues
      obtain ⟨hversion, hglobal, hnamespaces⟩ := hvalues
      refine ⟨hversion, hglobal, fun entry hentry => ?_⟩
      cases hnamespaces with
      | list hentries =>
        exact inProfile_epochEntryValue.mp (hentries _ (List.mem_map_of_mem hentry))
  · rintro ⟨hversion, hglobal, hentries⟩
    apply InProfile.dict
    · rw [List.forall_mem_cons, List.forall_mem_cons, List.forall_mem_singleton]
      exact ⟨clean_lit _, clean_lit _, clean_lit _⟩
    · rw [List.forall_mem_cons, List.forall_mem_cons, List.forall_mem_singleton]
      refine ⟨hversion, hglobal, .list fun v hv => ?_⟩
      obtain ⟨entry, hentry, rfl⟩ := List.mem_map.mp hv
      exact inProfile_epochEntryValue.mpr (hentries entry hentry)

variable {document : EpochDocument}

/-- The global epoch is increased as long as it stays in the profile. -/
theorem inProfile_rotateAll (h : InProfile document.toValue) :
    InProfile document.rotateAll.toValue ↔ (document.globalEpoch : ℤ) + 1 ≤ maxSafeInteger := by
  obtain ⟨hversion, -, hentries⟩ := inProfile_toValue_iff.mp h
  rw [inProfile_toValue_iff]
  constructor
  · rintro ⟨-, hglobal, -⟩
    exact_mod_cast hglobal
  · intro hglobal
    exact ⟨hversion, by exact_mod_cast hglobal, hentries⟩

/-- A document with the next epochs of some namespaces can be written when each of them can. -/
theorem inProfile_rotateNamespaces (h : InProfile document.toValue) {named : List (List Str)}
    (hclean : ∀ ns ∈ named, ∀ part ∈ ns, Clean part) :
    InProfile (document.rotateNamespaces named).toValue ↔
      ∀ ns ∈ named, ((document.epochs ns).2 + named.count ns : ℤ) ≤ maxSafeInteger := by
  obtain ⟨hversion, hglobal, hentries⟩ := inProfile_toValue_iff.mp h
  -- the entries that are written, and their epochs
  have hmem : ∀ ns n, (ns, n) ∈ (document.rotateNamespaces named).namespaces ↔
      (named.foldl (fun d ns => d.set ns ((d.get? ns).getD 0 + 1)) document.byNamespace).get? ns =
        some n :=
    fun ns n => (List.perm_insertionSort _ _).mem_iff.trans Dict.mem_entries_iff
  have hepoch : ∀ ns n, (ns, n) ∈ (document.rotateNamespaces named).namespaces →
      n = (document.epochs ns).2 + named.count ns := by
    intro ns n hn
    have hsum := getD_foldl_bump named document.byNamespace ns
    rw [(hmem ns n).mp hn] at hsum
    exact hsum
  rw [inProfile_toValue_iff]
  constructor
  · rintro ⟨-, -, hwritten⟩ ns hns
    have hpos : 0 < named.count ns := List.count_pos_iff.mpr hns
    have hsum := getD_foldl_bump named document.byNamespace ns
    cases hget : (named.foldl (fun d ns => d.set ns ((d.get? ns).getD 0 + 1))
        document.byNamespace).get? ns with
    | none =>
      rw [hget, Option.getD_none] at hsum
      omega
    | some n =>
      have hentry := (hmem ns n).mpr hget
      have hbound := (hwritten _ hentry).2
      have hn := hepoch ns n hentry
      push_cast [hn] at hbound
      exact hbound
  · intro hbound
    refine ⟨hversion, hglobal, ?_⟩
    rintro ⟨ns, n⟩ hentry
    have hn := hepoch ns n hentry
    by_cases hns : ns ∈ named
    · refine ⟨hclean ns hns, ?_⟩
      have hle := hbound ns hns
      dsimp only
      omega
    · -- the entry is an old one
      rcases mem_of_get?_foldl_bump ((hmem ns n).mp hentry) with hns' | ⟨m, hm⟩
      · exact absurd hns' hns
      · obtain ⟨hparts, hle⟩ := hentries (ns, m) (Dict.mem_of_get?_ofPairs hm)
        refine ⟨hparts, ?_⟩
        have hsame : (document.epochs ns).2 = m := by
          rw [epochs, hm]
          rfl
        rw [List.count_eq_zero_of_not_mem hns, hsame] at hn
        rw [hn]
        exact hle

end EpochDocument

/-! ### One call -/

namespace MemoryEpochRegistry

/-- The registry in memory accepts the rotations of valid namespaces. -/
theorem isOk_rotateNamespaces (named : List (List Str)) (registry : MemoryEpochRegistry) :
    (rotateNamespaces named registry).1.isOk = (validateNamespaces named).isOk := by
  induction named generalizing registry with
  | nil => rfl
  | cons ns rest ih =>
    rw [validateNamespaces]
    rcases rotateNamespaces_cons ns rest registry with ⟨hinvalid, e, herror⟩ | ⟨hvalid, hrest⟩
    · rw [herror]
      cases hns : validateNamespace ns with
      | error _ => rfl
      | ok u => rw [hns] at hinvalid; cases hinvalid
    · obtain ⟨u, hns⟩ := Except.exists_of_isOk hvalid
      rw [hrest, hns, ih]
      rfl

end MemoryEpochRegistry

namespace Registries

/-- The file holds a document that can be written, with the epochs of the registry in memory. -/
structure Agree (s : Registries) (document : EpochDocument) : Prop where
  read : EpochDocument.read s.file = .ok document
  inProfile : InProfile document.toValue
  epochs : ∀ ns, document.epochs ns = s.memory.epochs ns

variable {s : Registries} {document : EpochDocument}

/-- The registry on the file answers with the epochs of the document. -/
theorem fileEpochs_eq {file : File} (h : EpochDocument.read file = .ok document) {ns : List Str}
    (hns : validateNamespace ns = .ok ()) :
    filesystemEpochRegistry.epochs file ns = .ok (document.epochs ns) :=
  filesystemEpochRegistry.epochs_eq ⟨document, h, rfl⟩ ns hns

/-- Registries that agree answer alike. -/
theorem Agree.sameEpochs (h : s.Agree document) : s.SameEpochs := by
  intro ns hns
  rw [fileEpochs_eq h.read hns, h.epochs]
  rfl

/-- A call that both registries accept is sound when it moves the epochs of both. -/
theorem callSound_of_accepted {call : RegistryCall} {document' : EpochDocument}
    (h : s.Agree document) (hepochs : ∀ ns, call = .epochs ns → validateNamespace ns = .ok ())
    (hmemory : (call.rotate memoryEpochRegistry s.memory).1.isOk = true)
    (hfile : (call.rotate filesystemEpochRegistry s.file).1.isOk = true)
    (hnext : (s.next call).Agree document')
    (hadvance : ∀ ns, document'.epochs ns = call.advance ns (document.epochs ns)) :
    s.CallSound call := by
  refine ⟨fun ns hcall => h.sameEpochs ns (hepochs ns hcall), hfile.trans hmemory.symm, ?_, ?_,
    hnext.sameEpochs⟩
  · intro ns _
    have hmoved : (s.next call).memory.epochs ns = call.advance ns (s.memory.epochs ns) := by
      rw [← hnext.epochs, hadvance, h.epochs]
    rw [if_pos hmemory]
    exact congrArg Except.ok hmoved
  · intro ns hns
    rw [if_pos hfile, fileEpochs_eq h.read hns]
    exact (fileEpochs_eq hnext.read hns).trans (congrArg Except.ok (hadvance ns))

/-- A rotation that both registries refuse is sound when the epochs in memory stay as they are. -/
theorem callSound_of_refused {named : List (List Str)} (h : s.Agree document)
    (hmemory : (MemoryEpochRegistry.rotateNamespaces named s.memory).1.isOk = false)
    (hsame : (MemoryEpochRegistry.rotateNamespaces named s.memory).2.epochs = s.memory.epochs)
    (hfile : ∃ e, rotateEpochFile named s.file = (.error e, s.file)) :
    s.CallSound (.rotateNamespaces named) ∧ (s.next (.rotateNamespaces named)).Agree document := by
  obtain ⟨e, hfile⟩ := hfile
  have hmem : memoryEpochRegistry.rotateNamespaces = MemoryEpochRegistry.rotateNamespaces := rfl
  have hfs : filesystemEpochRegistry.rotateNamespaces = rotateEpochFile := rfl
  have hagree : (s.next (.rotateNamespaces named)).Agree document := by
    refine ⟨?_, h.inProfile, fun ns => ?_⟩
    · rw [next, RegistryCall.rotate, RegistryCall.rotate, hfs, hfile]
      exact h.read
    · rw [h.epochs]
      exact (congrFun hsame ns).symm
  refine ⟨⟨?_, ?_, ?_, ?_, hagree.sameEpochs⟩, hagree⟩
  · rintro ns ⟨⟩
  · rw [RegistryCall.rotate, RegistryCall.rotate, hfs, hfile, hmem, hmemory]
    rfl
  · intro ns _
    rw [RegistryCall.rotate, hmem, hmemory]
    exact congrArg Except.ok (congrFun hsame ns)
  · intro ns _
    rw [RegistryCall.rotate, hfs, hfile]
    rfl

/-- The epochs of a namespace are asked for: sound when the namespace is valid. -/
theorem callSound_epochs_iff (h : s.Agree document) (ns : List Str) :
    s.CallSound (.epochs ns) ↔ s.Fits (.epochs ns) := by
  constructor
  · intro hsound
    -- the registry in memory answers always
    have hanswer := hsound.answer ns rfl
    obtain ⟨u, hns, -⟩ := Except.bind_eq_ok.mp hanswer
    exact hns
  · intro hns
    have hagree : (s.next (.epochs ns)).Agree document := h
    apply callSound_of_accepted h _ rfl rfl hagree
    · intro ns'
      rfl
    · rintro ns' ⟨⟩
      exact hns

/-- Everything is cleared: sound when the next epoch can be written. -/
theorem callSound_rotateAll_iff (h : s.Agree document) :
    (s.CallSound .rotateAll ↔ s.Fits .rotateAll) ∧
      (s.Fits .rotateAll → ∃ document', (s.next .rotateAll).Agree document') := by
  have hglobal : document.globalEpoch = s.memory.globalEpoch := congrArg Prod.fst (h.epochs [])
  have hvalid : document.rotateAll.Valid :=
    ⟨(EpochDocument.valid_of_read h.read).version, (EpochDocument.valid_of_read h.read).namespaces⟩
  have hfits : s.Fits .rotateAll ↔ InProfile document.rotateAll.toValue := by
    rw [EpochDocument.inProfile_rotateAll h.inProfile, hglobal]
    rfl
  have hfs : filesystemEpochRegistry.rotateAll = updateEpochFile EpochDocument.rotateAll := rfl
  rw [hfits]
  rcases updateEpochFile_cases h.read EpochDocument.rotateAll hvalid with
    ⟨hprofile, data, hreturned, hread⟩ | ⟨hprofile, e, hraised⟩
  · have hagree : (s.next .rotateAll).Agree document.rotateAll := by
      refine ⟨?_, hprofile, fun ns => ?_⟩
      · rw [next, RegistryCall.rotate, RegistryCall.rotate, hfs, hreturned]
        exact hread
      · have hold := h.epochs ns
        exact Prod.ext (congrArg (· + 1) (congrArg Prod.fst hold)) (congrArg Prod.snd hold :)
    refine ⟨iff_of_true ?_ hprofile, fun _ => ⟨_, hagree⟩⟩
    apply callSound_of_accepted h _ rfl _ hagree
    · intro ns
      rfl
    · rintro ns ⟨⟩
    · rw [RegistryCall.rotate, hfs, hreturned]
      rfl
  · refine ⟨iff_of_false (fun hsound => ?_) hprofile, fun hprofile' => absurd hprofile' hprofile⟩
    -- the registry in memory has no bound
    have haccepted := hsound.accepted
    rw [RegistryCall.rotate, RegistryCall.rotate, hfs, hraised] at haccepted
    cases haccepted

/-- Valid namespaces are cleared: sound when their next epochs can be written. -/
theorem callSound_rotateNamespaces_of_valid (h : s.Agree document) {named : List (List Str)}
    (hclean : ∀ ns ∈ named, ∀ part ∈ ns, Clean part) (hnamed : validateNamespaces named = .ok ()) :
    (s.CallSound (.rotateNamespaces named) ↔ s.Representable (.rotateNamespaces named)) ∧
      (s.Representable (.rotateNamespaces named) →
        ∃ document', (s.next (.rotateNamespaces named)).Agree document') := by
  have hvalid := (EpochDocument.valid_of_read h.read).rotateNamespaces
    (validateNamespaces_eq_ok.mp hnamed)
  have hrepresentable : s.Representable (.rotateNamespaces named) ↔
      InProfile (document.rotateNamespaces named).toValue := by
    rw [EpochDocument.inProfile_rotateNamespaces h.inProfile hclean]
    simp only [h.epochs]
    rfl
  have hmem : memoryEpochRegistry.rotateNamespaces = MemoryEpochRegistry.rotateNamespaces := rfl
  have hfs : filesystemEpochRegistry.rotateNamespaces = rotateEpochFile := rfl
  have hmemory : (MemoryEpochRegistry.rotateNamespaces named s.memory).1.isOk = true := by
    rw [MemoryEpochRegistry.isOk_rotateNamespaces, hnamed]
    rfl
  rw [hrepresentable]
  rcases updateEpochFile_cases h.read (fun document => document.rotateNamespaces named) hvalid with
    ⟨hprofile, data, hreturned, hread⟩ | ⟨hprofile, e, hraised⟩
  · have hfile : rotateEpochFile named s.file = (.ok (), some data) := by
      rw [rotateEpochFile_of_valid hnamed, hreturned]
    have hagree : (s.next (.rotateNamespaces named)).Agree (document.rotateNamespaces named) := by
      refine ⟨?_, hprofile, fun ns => ?_⟩
      · rw [next, RegistryCall.rotate, RegistryCall.rotate, hfs, hfile]
        exact hread
      · rw [next, RegistryCall.rotate, hmem, MemoryEpochRegistry.rotateNamespaces_apply,
          if_pos hmemory, EpochDocument.epochs_rotateNamespaces, Epochs.rotate, h.epochs]
    refine ⟨iff_of_true ?_ hprofile, fun _ => ⟨_, hagree⟩⟩
    refine callSound_of_accepted h ?_ hmemory ?_ hagree ?_
    · rintro ns ⟨⟩
    · rw [RegistryCall.rotate, hfs, hfile]
      rfl
    · intro ns
      exact EpochDocument.epochs_rotateNamespaces document named ns
  · refine ⟨iff_of_false (fun hsound => ?_) hprofile, fun hprofile' => absurd hprofile' hprofile⟩
    have haccepted := hsound.accepted
    rw [RegistryCall.rotate, RegistryCall.rotate, hfs, rotateEpochFile_of_valid hnamed, hraised,
      hmem, hmemory] at haccepted
    cases haccepted

/-- A list with an invalid namespace is refused: sound when the first one is invalid. -/
theorem callSound_rotateNamespaces_of_invalid (h : s.Agree document) {named : List (List Str)}
    {e : PyError} (hnamed : validateNamespaces named = .error e) :
    (s.CallSound (.rotateNamespaces named) ↔
        ∃ ns ∈ named.head?, validateNamespace ns ≠ .ok ()) ∧
      (s.CallSound (.rotateNamespaces named) →
        (s.next (.rotateNamespaces named)).Agree document) := by
  have hmemory : (MemoryEpochRegistry.rotateNamespaces named s.memory).1.isOk = false := by
    rw [MemoryEpochRegistry.isOk_rotateNamespaces, hnamed]
    rfl
  have hmoved := MemoryEpochRegistry.rotateNamespaces_apply named s.memory
  rw [hmemory, if_neg Bool.false_ne_true] at hmoved
  have hrefused : ∃ e, rotateEpochFile named s.file = (.error e, s.file) :=
    rotateEpochFile_of_invalid hnamed
  cases named with
  | nil => cases hnamed
  | cons first rest =>
    cases hfirst : validateNamespace first with
    | error _ =>
      -- nothing has been moved before the first namespace
      rw [List.takeWhile_cons, hfirst] at hmoved
      obtain ⟨hsound, hagree⟩ := callSound_of_refused h hmemory hmoved hrefused
      exact ⟨iff_of_true hsound ⟨first, rfl, by simp [hfirst]⟩, fun _ => hagree⟩
    | ok u =>
      have hunsound : ¬s.CallSound (.rotateNamespaces (first :: rest)) := by
        intro hsound
        have hsame := hsound.memory first hfirst
        have hmem : memoryEpochRegistry.rotateNamespaces =
          MemoryEpochRegistry.rotateNamespaces := rfl
        rw [RegistryCall.rotate, hmem, hmemory, if_neg Bool.false_ne_true] at hsame
        -- the first namespace has moved
        have hepoch := congrArg Prod.snd ((congrFun hmoved first).symm.trans (Except.ok.inj hsame))
        rw [List.takeWhile_cons, hfirst] at hepoch
        simp [Epochs.rotate, Except.isOk, Except.toBool] at hepoch
      refine ⟨iff_of_false hunsound ?_, fun hsound => absurd hsound hunsound⟩
      rintro ⟨ns, ⟨⟩, hns⟩
      exact hns hfirst

/-- From registries that agree, a call is sound exactly when it fits, and then they agree again. -/
theorem callSound_iff (h : s.Agree document) {call : RegistryCall} (hclean : call.Clean) :
    (s.CallSound call ↔ s.Fits call) ∧
      (s.CallSound call → ∃ document', (s.next call).Agree document') := by
  cases call with
  | epochs ns => exact ⟨callSound_epochs_iff h ns, fun _ => ⟨document, h⟩⟩
  | rotateAll =>
    obtain ⟨hiff, hagree⟩ := callSound_rotateAll_iff h
    exact ⟨hiff, fun hsound => hagree (hiff.mp hsound)⟩
  | rotateNamespaces named =>
    cases hnamed : validateNamespaces named with
    | ok u =>
      obtain ⟨hiff, hagree⟩ := callSound_rotateNamespaces_of_valid h hclean hnamed
      refine ⟨?_, fun hsound => hagree (hiff.mp hsound)⟩
      rw [hiff]
      constructor
      · intro hrepresentable
        exact .inl ⟨hnamed, hrepresentable⟩
      · rintro (⟨-, hrepresentable⟩ | ⟨ns, hns, hinvalid⟩)
        · exact hrepresentable
        · rw [validateNamespaces_eq_ok] at hnamed
          rw [Ne, validateNamespace_eq_ok] at hinvalid
          exact absurd (hnamed ns (List.mem_of_mem_head? hns)) hinvalid
    | error e =>
      obtain ⟨hiff, hagree⟩ := callSound_rotateNamespaces_of_invalid h hnamed
      refine ⟨?_, fun hsound => ⟨document, hagree hsound⟩⟩
      rw [hiff]
      constructor
      · exact .inr
      · rintro (⟨hok, -⟩ | hhead)
        · cases hok.symm.trans hnamed
        · exact hhead

/-! ### Runs -/

/-- At first the registries agree. -/
theorem agree_init : (after []).Agree ⟨.int 1, 0, []⟩ := by
  refine ⟨rfl, EpochDocument.inProfile_toValue_iff.mpr ⟨?_, ?_, ?_⟩, fun _ => rfl⟩
  · exact .int (by decide) (by decide)
  · decide
  · simp

/-- The last call is made after the others. -/
theorem after_concat (calls : List RegistryCall) (call : RegistryCall) :
    after (calls ++ [call]) = (after calls).next call := by
  simp [after]

/-- As long as every call is sound, the registries agree. -/
theorem exists_agree {calls : List RegistryCall} (hclean : ∀ call ∈ calls, call.Clean)
    (hsound : ∀ before call rest, calls = before ++ call :: rest → (after before).CallSound call) :
    ∃ document, (after calls).Agree document := by
  induction calls using List.reverseRecOn with
  | nil => exact ⟨_, agree_init⟩
  | append_singleton calls call ih =>
    obtain ⟨document, hagree⟩ := ih (fun c hc => hclean c (List.mem_append_left _ hc))
      fun before c rest hcalls => hsound before c (rest ++ [call]) (by simp [hcalls])
    rw [after_concat]
    exact (callSound_iff hagree (hclean call (by simp))).2 (hsound calls call [] rfl)

end Registries

/-- The calls of a run are all sound exactly when they all fit: none names a valid namespace before
an invalid one, takes an epoch past the integers of canonical JSON, or asks for the epochs of an
invalid namespace. -/
theorem registriesSound_iff (calls : List RegistryCall) (hclean : ∀ call ∈ calls, call.Clean) :
    (∀ before call rest, calls = before ++ call :: rest →
        (Registries.after before).CallSound call) ↔
      ∀ before call rest, calls = before ++ call :: rest → (Registries.after before).Fits call := by
  constructor
  · intro hsound before call rest hcalls
    -- the calls before this one are sound
    have hagree : ∃ document, (Registries.after before).Agree document := by
      refine Registries.exists_agree (fun c hc => hclean c ?_) fun before' c rest' hbefore => ?_
      · rw [hcalls]
        exact List.mem_append_left _ hc
      · exact hsound before' c (rest' ++ call :: rest) (by simp [hcalls, hbefore])
    obtain ⟨document, hagree⟩ := hagree
    have hcall : call ∈ calls := by simp [hcalls]
    exact (Registries.callSound_iff hagree (hclean call hcall)).1.mp
      (hsound before call rest hcalls)
  · intro hfits
    induction calls using List.reverseRecOn with
    | nil => simp
    | append_singleton calls last ih =>
      have hbefore : ∀ before call rest, calls = before ++ call :: rest →
          (Registries.after before).CallSound call := by
        refine ih (fun c hc => hclean c (List.mem_append_left _ hc)) fun before call rest hcalls =>
          ?_
        exact hfits before call (rest ++ [last]) (by simp [hcalls])
      obtain ⟨document, hagree⟩ := Registries.exists_agree
        (fun c hc => hclean c (List.mem_append_left _ hc)) hbefore
      intro before call rest hcalls
      rcases List.eq_nil_or_concat rest with rfl | ⟨rest, c, rfl⟩
      · obtain ⟨rfl, hlast⟩ := List.append_inj' hcalls rfl
        cases hlast
        exact (Registries.callSound_iff hagree (hclean last (by simp))).1.mpr
          (hfits calls last [] rfl)
      · rw [List.concat_eq_append, ← List.cons_append, ← List.append_assoc] at hcalls
        obtain ⟨hcalls, -⟩ := List.append_inj' hcalls rfl
        exact hbefore before call rest hcalls

/-- A run in which namespaces are cleared twice in one call and again later, everything is cleared
in between, and a call is refused for its first namespace. -/
def exampleCalls : List RegistryCall :=
  [.rotateNamespaces [[lit "a"], [lit "a"]], .epochs [lit "a"], .rotateAll,
    .rotateNamespaces [[[]], [lit "a"]], .rotateNamespaces [[lit "a"], [lit "b", lit "c"]],
    .epochs [lit "b", lit "c"]]

/-- The calls of the run are sound, the one that is refused and the last one among them. -/
theorem registriesSound_iff_repeated :
    (Registries.after (exampleCalls.take 3)).CallSound (.rotateNamespaces [[[]], [lit "a"]]) ∧
      (Registries.after (exampleCalls.take 5)).CallSound (.epochs [lit "b", lit "c"]) := by
  have hclean : ∀ call ∈ exampleCalls, call.Clean := by
    have hempty : Clean [] := by simp [Clean]
    simp [exampleCalls, RegistryCall.Clean, clean_lit, hempty]
  have hsound : ∀ before call rest, exampleCalls = before ++ call :: rest →
      (Registries.after before).CallSound call := by
    apply (registriesSound_iff _ hclean).mpr
    intro before call rest hcalls
    rw [exampleCalls] at hcalls
    rcases before with _ | ⟨_, _ | ⟨_, _ | ⟨_, _ | ⟨_, _ | ⟨_, _ | ⟨_, before⟩⟩⟩⟩⟩⟩
    · cases hcalls
      exact .inl ⟨rfl, by unfold Registries.Representable; decide⟩
    · cases hcalls
      exact rfl
    · cases hcalls
      unfold Registries.Fits Registries.Representable
      decide
    · cases hcalls
      exact .inr ⟨[[]], rfl, by decide⟩
    · cases hcalls
      exact .inl ⟨rfl, by unfold Registries.Representable; decide⟩
    · cases hcalls
      exact rfl
    · simp at hcalls
  exact ⟨hsound _ _ [_, _] rfl, hsound _ _ [] rfl⟩

/-- The registry in memory keeps the epoch it has moved before it comes to an invalid namespace. -/
theorem not_registriesSound :
    ¬∀ calls : List RegistryCall, (∀ call ∈ calls, call.Clean) →
      ∀ before call rest, calls = before ++ call :: rest →
        (Registries.after before).CallSound call := by
  intro h
  have hclean : ∀ call ∈ [RegistryCall.rotateNamespaces [[lit "a"], [[]]]], call.Clean := by
    have hempty : Clean [] := by simp [Clean]
    simp [RegistryCall.Clean, clean_lit, hempty]
  have hsound := h _ hclean [] _ [] rfl
  have hmoved := hsound.memory [lit "a"] rfl
  exact absurd hmoved (by decide)

end OnceMesh
