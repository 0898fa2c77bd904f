import OnceMesh.Python.Error
import OnceMesh.Python.Ipaddress

/-!
# URLs

`urllib.parse` of Python 3.11, and the `idna` codec. What they do with text outside ASCII depends on
the tables of Unicode, which are a parameter here; of these the proofs use how `@` arises.
-/

namespace Python

/-- `s.isascii()`. -/
def isAscii (s : Str) : Bool := s.all fun c => c.val < 0x80

/-- `@` -/
@[simp]
abbrev atSign : CodePoint := 0x40

/-- `@`, and the two characters that compatibility normalization maps to it. -/
def isCommercialAt (c : CodePoint) : Bool := c = atSign || c = 0xFE6B || c = 0xFF20

/-- What Python does with text outside ASCII. -/
class UnicodeTables where
  /-- `s.lower()`. -/
  lower : Str → Str
  /-- `unicodedata.normalize("NFKC", s)`. -/
  nfkc : Str → Str
  /-- `s.encode("idna")`, unless it raises a `UnicodeError`. -/
  toAscii : Str → Option Str
  mem_of_mem_lower : ∀ {s : Str} {c : CodePoint}, isCommercialAt c = true → c ∈ lower s → c ∈ s
  atSign_mem_nfkc : ∀ {s : Str} {c : CodePoint}, isCommercialAt c = true → c ∈ s → atSign ∈ nfkc s
  exists_of_mem_toAscii : ∀ {s encoded : Str}, toAscii s = some encoded → atSign ∈ encoded →
    ∃ c ∈ s, isCommercialAt c = true

/-- Tables that suffice for ASCII. -/
abbrev UnicodeTables.ascii : UnicodeTables where
  lower := id
  nfkc s := s.map fun c => if isCommercialAt c then atSign else c
  toAscii _ := none
  mem_of_mem_lower _ h := h
  atSign_mem_nfkc hc hmem := List.mem_map.mpr ⟨_, hmem, if_pos hc⟩
  exists_of_mem_toAscii h := by cases h

section

variable [UnicodeTables]

/-- `s.lower()`. -/
def lowerText (s : Str) : Str := if isAscii s then lower s else UnicodeTables.lower s

/-- `s.encode("idna").decode("ascii")`. -/
def encodeIdna (s : Str) : Except PyError Str :=
  if isAscii s then
    let labels := s.splitOn 0x2E
    if labels.dropLast.all (fun label => 0 < label.length && label.length < 64) &&
        labels.getLast?.all fun label => label.length < 64 then .ok s
    else .error .unicodeError
  else
    match UnicodeTables.toAscii s with
    | some encoded => .ok encoded
    | none => .error .unicodeError

end

/-- `s.rpartition(separator)`. -/
def rpartition (s : Str) (separator : CodePoint) : Str × Bool × Str :=
  let (after, found, before) := partition s.reverse separator
  if found then (before.reverse, true, after.reverse) else ([], false, s)

/-! ### `urlsplit` -/

/-- `SplitResult`. -/
structure SplitResult where
  scheme : Str
  netloc : Str
  path : Str
  query : Str
  fragment : Str
  deriving DecidableEq

/-- The letters of ASCII. -/
def isAsciiLetter (c : CodePoint) : Bool :=
  decide (0x41 ≤ c.val ∧ c.val ≤ 0x5A ∨ 0x61 ≤ c.val ∧ c.val ≤ 0x7A)

/-- `scheme_chars`. -/
def isSchemeChar (c : CodePoint) : Bool :=
  isAsciiLetter c || isDigit c || c = 0x2B || c = 0x2D || c = 0x2E

/-- `_WHATWG_C0_CONTROL_OR_SPACE`. -/
def isControlOrSpace (c : CodePoint) : Bool := c.val ≤ 0x20

/-- `_UNSAFE_URL_BYTES_TO_REMOVE`. -/
def isUnsafe (c : CodePoint) : Bool := c = 0x09 || c = 0x0D || c = 0x0A

/-- The scheme of a URL, and what follows it. -/
def splitScheme (url : Str) : Str × Str :=
  let (scheme, colon, rest) := partition url 0x3A
  if colon && scheme.head?.any isAsciiLetter && scheme.all isSchemeChar then (lower scheme, rest)
  else ([], url)

/-- The characters that end a network location. -/
def endsNetloc (c : CodePoint) : Bool := c = 0x2F || c = 0x3F || c = 0x23

/-- `_splitnetloc` behind two slashes. -/
def splitNetloc (url : Str) : Str × Str :=
  if startsWith url (lit "//") then
    ((url.drop 2).takeWhile (!endsNetloc ·), (url.drop 2).dropWhile (!endsNetloc ·))
  else ([], url)

/-- `re.match(r"\Av[a-fA-F0-9]+\..+\Z", hostname)`. -/
def isIpvFuture (hostname : Str) : Bool :=
  let isHex (c : CodePoint) : Bool := (Json.hexVal? c).isSome
  let rest := (hostname.drop 1).dropWhile isHex
  hostname.head? = some 0x76 && (hostname.drop 1).takeWhile isHex ≠ [] &&
    rest.head? = some 0x2E && rest.tail ≠ [] && !rest.tail.contains 0x0A

/-- `_check_bracketed_host`. -/
def checkBracketedHost (hostname : Str) : Except PyError Unit :=
  if startsWith hostname (lit "v") then
    raiseIf (!isIpvFuture hostname) "IPvFuture address is invalid"
  else
    match IpAddress.ofText? hostname with
    | none => raiseValueError "host does not appear to be an IPv4 or IPv6 address"
    | some (.v4 _) => raiseValueError "An IPv4 address cannot be in brackets"
    | some (.v6 _ _) => .ok ()

/-- The checks of the brackets of a network location. -/
def checkBrackets (netloc : Str) : Except PyError Unit := do
  raiseIf (netloc.contains 0x5B != netloc.contains 0x5D) "Invalid IPv6 URL"
  if netloc.contains 0x5B then
    checkBracketedHost (partition (partition netloc 0x5B).2.2 0x5D).1

/-- `_checknetloc`. -/
def checkNetloc [UnicodeTables] (netloc : Str) : Except PyError Unit :=
  if isAscii netloc then .ok ()
  else
    let kept := netloc.filter fun c => !(c = atSign || c = 0x3A || c = 0x23 || c = 0x3F)
    let normalized := UnicodeTables.nfkc kept
    raiseIf (kept ≠ normalized &&
        [0x2F, 0x3F, 0x23, atSign, 0x3A].any fun c => normalized.contains c)
      "netloc contains invalid characters under NFKC normalization"

/-- `urlsplit`. -/
def urlsplit [UnicodeTables] (url : Str) : Except PyError SplitResult := do
  let url := (url.dropWhile isControlOrSpace).filter (!isUnsafe ·)
  let (scheme, url) := splitScheme url
  let (netloc, url) := splitNetloc url
  checkBrackets netloc
  let (url, _, fragment) := partition url 0x23
  let (path, _, query) := partition url 0x3F
  checkNetloc netloc
  pure { scheme, netloc, path, query, fragment }

namespace SplitResult

/-- `username`. -/
def username (parsed : SplitResult) : Option Str :=
  let (userinfo, found, _) := rpartition parsed.netloc atSign
  if found then some (partition userinfo 0x3A).1 else none

/-- `password`. -/
def password (parsed : SplitResult) : Option Str :=
  let (userinfo, found, _) := rpartition parsed.netloc atSign
  let (_, given, password) := partition userinfo 0x3A
  if found && given then some password else none

/-- `_hostinfo`: the host and the text of the port. -/
def hostinfo (parsed : SplitResult) : Str × Str :=
  let hostinfo := (rpartition parsed.netloc atSign).2.2
  let (_, bracket, bracketed) := partition hostinfo 0x5B
  if bracket then
    let (hostname, _, rest) := partition bracketed 0x5D
    (hostname, (partition rest 0x3A).2.2)
  else
    let (hostname, _, port) := partition hostinfo 0x3A
    (hostname, port)

/-- `hostname`. The zone of a scoped address keeps its case. -/
def hostname [UnicodeTables] (parsed : SplitResult) : Option Str :=
  if parsed.hostinfo.1 = [] then none
  else
    let (hostname, percent, zone) := partition parsed.hostinfo.1 0x25
    some (lowerText hostname ++ (if percent then lit "%" else []) ++ zone)

/-- `port`. -/
def port (parsed : SplitResult) : Except PyError (Option ℕ) :=
  let port := parsed.hostinfo.2
  if port = [] then .ok none
  else if !port.all isDigit then raiseValueError "Port could not be cast to integer value"
  else if Json.intMaxStrDigits < port.length then .error (Json.digitLimitError port.length)
  else if 65535 < Json.natOfDigits port then raiseValueError "Port out of range 0-65535"
  else .ok (some (Json.natOfDigits port))

/-- `urlunsplit`, with a scheme that uses network locations. -/
def unsplit (parsed : SplitResult) : Str :=
  parsed.scheme ++ lit "://" ++ parsed.netloc ++
    (if parsed.path = [] ∨ parsed.path.head? = some 0x2F then parsed.path
      else lit "/" ++ parsed.path) ++
    (if parsed.query = [] then [] else lit "?" ++ parsed.query) ++
    (if parsed.fragment = [] then [] else lit "#" ++ parsed.fragment)

end SplitResult

/-! ### The characters of the parts -/

/-- What stands before a separator is text without it. -/
theorem mem_partition_before {s : Str} {separator c : CodePoint}
    (h : c ∈ (partition s separator).1) : c ∈ s ∧ c ≠ separator := by
  refine ⟨(List.takeWhile_sublist _).subset h, ?_⟩
  exact of_decide_eq_true (List.all_eq_true.mp List.all_takeWhile c h)

theorem mem_partition_after {s : Str} {separator c : CodePoint}
    (h : c ∈ (partition s separator).2.2) : c ∈ s :=
  (List.dropWhile_sublist _).subset (List.mem_of_mem_tail h)

/-- What stands behind the last separator is text without it. -/
theorem mem_rpartition_after {s : Str} {separator c : CodePoint}
    (h : c ∈ (rpartition s separator).2.2) : c ∈ s ∧ c ≠ separator := by
  unfold rpartition at h
  simp only at h
  split_ifs at h with hfound
  · rw [List.mem_reverse] at h
    obtain ⟨hmem, hne⟩ := mem_partition_before h
    exact ⟨List.mem_reverse.mp hmem, hne⟩
  · refine ⟨h, ?_⟩
    rintro rfl
    exact hfound (decide_eq_true (List.mem_reverse.mpr h))

namespace SplitResult

/-- The host stands in the network location, behind the user information. -/
theorem mem_netloc_of_mem_hostinfo {parsed : SplitResult} {c : CodePoint}
    (h : c ∈ parsed.hostinfo.1) : c ∈ parsed.netloc ∧ c ≠ atSign := by
  apply mem_rpartition_after
  unfold hostinfo at h
  simp only at h
  split_ifs at h
  · exact mem_partition_after (mem_partition_before h).1
  · exact (mem_partition_before h).1

/-- Without `@` there is no user information. -/
theorem userinfo_eq_none {parsed : SplitResult} (h : atSign ∉ parsed.netloc) :
    parsed.username = none ∧ parsed.password = none := by
  have hnone : (rpartition parsed.netloc atSign).2.1 = false := by
    simp [rpartition, partition, h]
  constructor
  · simp [username, hnone]
  · simp [password, hnone]

end SplitResult

/-- Lowering ASCII makes no `@`. -/
theorem mem_of_mem_lower {s : Str} {c : CodePoint} (hc : isCommercialAt c = true)
    (h : c ∈ lower s) : c ∈ s := by
  obtain ⟨d, hd, rfl⟩ := List.mem_map.mp h
  split_ifs at hc ⊢ with hupper
  · simp only [isCommercialAt, Bool.or_eq_true, decide_eq_true_eq, Fin.ext_iff] at hc
    norm_num at hc
    omega
  · exact hd

section

variable [UnicodeTables]

theorem mem_of_mem_lowerText {s : Str} {c : CodePoint} (hc : isCommercialAt c = true)
    (h : c ∈ lowerText s) : c ∈ s := by
  unfold lowerText at h
  split_ifs at h
  · exact mem_of_mem_lower hc h
  · exact UnicodeTables.mem_of_mem_lower hc h

/-- A character that stands for `@` was in the host before it was lowered. -/
theorem SplitResult.mem_hostinfo_of_mem_hostname {parsed : SplitResult} {hostname : Str}
    {c : CodePoint} (hc : isCommercialAt c = true) (h : parsed.hostname = some hostname)
    (hmem : c ∈ hostname) : c ∈ parsed.hostinfo.1 := by
  unfold SplitResult.hostname at h
  split_ifs at h
  simp only [Option.some.injEq] at h
  rw [← h, List.mem_append, List.mem_append] at hmem
  rcases hmem with (hmem | hmem) | hmem
  · exact (mem_partition_before (mem_of_mem_lowerText hc hmem)).1
  · have hpercent : lit "%" = [0x25] := by decide
    split_ifs at hmem
    · rw [hpercent, List.mem_singleton] at hmem
      rw [hmem] at hc
      exact absurd hc (by decide)
    · cases hmem
  · exact mem_partition_after hmem

/-- The codec makes `@` only of a character that stands for it. -/
theorem atSign_notMem_encodeIdna {s encoded : Str} (hs : ∀ c ∈ s, isCommercialAt c = false)
    (h : encodeIdna s = .ok encoded) : atSign ∉ encoded := by
  intro hmem
  unfold encodeIdna at h
  split_ifs at h with hascii
  · simp only at h
    split_ifs at h
    cases h
    exact absurd (hs _ hmem) (by decide)
  · split at h
    next found hfound =>
      cases h
      obtain ⟨c, hc, hat⟩ := UnicodeTables.exists_of_mem_toAscii hfound hmem
      rw [hs c hc] at hat
      cases hat
    · cases h

/-- A network location that passes has no character that stands for `@` but `@` itself. -/
theorem eq_atSign_of_checkNetloc {netloc : Str} (h : checkNetloc netloc = .ok ()) {c : CodePoint}
    (hc : isCommercialAt c = true) (hmem : c ∈ netloc) : c = atSign := by
  have hcases : c = atSign ∨ c = 0xFE6B ∨ c = 0xFF20 := by
    simpa [isCommercialAt, or_assoc] using hc
  by_contra hne
  have hwide : 0x80 ≤ c.val ∧ c ≠ 0x3A ∧ c ≠ 0x23 ∧ c ≠ 0x3F := by
    rcases hcases with rfl | rfl | rfl
    · exact absurd rfl hne
    · decide
    · decide
  unfold checkNetloc at h
  split_ifs at h with hascii
  · have hsmall := of_decide_eq_true (List.all_eq_true.mp hascii c hmem)
    omega
  · -- normalization turns the character into `@`, and the location is refused for it
    have hkept : c ∈ netloc.filter fun c => !(c = atSign || c = 0x3A || c = 0x23 || c = 0x3F) := by
      rw [List.mem_filter]
      refine ⟨hmem, ?_⟩
      simp [show c ≠ 0x40 from hne, hwide.2]
    have hnormalized := UnicodeTables.atSign_mem_nfkc hc hkept
    have hremoved : atSign ∉
        netloc.filter fun c => !(c = atSign || c = 0x3A || c = 0x23 || c = 0x3F) := by
      simp
    rw [raiseIf_eq_ok] at h
    simp only [Bool.and_eq_false_imp, decide_eq_true_eq] at h
    have hclean := h fun hsame => hremoved (hsame ▸ hnormalized)
    rw [List.any_eq_false] at hclean
    exact hclean atSign (by simp) (List.contains_iff_mem.mpr hnormalized)

/-! ### What is split -/

/-- A URL that is split has passed the check of its network location. -/
theorem checkNetloc_of_urlsplit {url : Str} {parsed : SplitResult}
    (h : urlsplit url = .ok parsed) : checkNetloc parsed.netloc = .ok () := by
  unfold urlsplit at h
  obtain ⟨⟨⟩, -, h⟩ := Except.bind_eq_ok.mp h
  obtain ⟨⟨⟩, hnetloc, h⟩ := Except.bind_eq_ok.mp h
  cases h
  exact hnetloc

/-- The host of a URL that is split is encoded without `@`. -/
theorem atSign_notMem_host {url hostname host : Str} {parsed : SplitResult}
    (h : urlsplit url = .ok parsed) (hhostname : parsed.hostname = some hostname)
    (hhost : encodeIdna hostname = .ok host) : atSign ∉ host := by
  refine atSign_notMem_encodeIdna (fun c hc => ?_) hhost
  rw [Bool.eq_false_iff]
  intro hat
  obtain ⟨hmem, hne⟩ :=
    parsed.mem_netloc_of_mem_hostinfo (parsed.mem_hostinfo_of_mem_hostname hat hhostname hc)
  exact hne (eq_atSign_of_checkNetloc (checkNetloc_of_urlsplit h) hat hmem)

omit [UnicodeTables] in
theorem splitScheme_https (rest : Str) :
    splitScheme (lit "https:" ++ rest) = (lit "https", rest) := by
  have hlit : lit "https:" = [0x68, 0x74, 0x74, 0x70, 0x73, 0x3A] := by decide
  have hpartition : partition (lit "https:" ++ rest) 0x3A = (lit "https", true, rest) := by
    have hscheme : lit "https" = [0x68, 0x74, 0x74, 0x70, 0x73] := by decide
    rw [hlit, hscheme]
    simp [partition]
  have hchars : ((lit "https").head?.any isAsciiLetter && (lit "https").all isSchemeChar) =
      true := by
    decide
  have hlower : lower (lit "https") = lit "https" := by decide
  rw [splitScheme, hpartition]
  simp [hchars, hlower]

/-- A URL that starts with `https://` has this scheme, and what follows is its location. -/
theorem urlsplit_https {rest : Str} {parsed : SplitResult}
    (h : urlsplit (lit "https://" ++ rest) = .ok parsed) :
    parsed.scheme = lit "https" ∧
      parsed.netloc = (rest.filter (!isUnsafe ·)).takeWhile (!endsNetloc ·) := by
  have hkept : ((lit "https://" ++ rest).dropWhile isControlOrSpace).filter (!isUnsafe ·) =
      lit "https:" ++ (lit "//" ++ rest.filter (!isUnsafe ·)) := by
    have hlit : lit "https://" = 0x68 :: lit "ttps://" := by decide
    have hfilter : (lit "https://").filter (!isUnsafe ·) = lit "https:" ++ lit "//" := by decide
    have hhead : isControlOrSpace 0x68 = false := by decide
    rw [hlit, List.cons_append, List.dropWhile_cons, hhead, if_neg Bool.false_ne_true,
      ← List.cons_append, ← hlit, List.filter_append, hfilter, List.append_assoc]
  have hslashes : splitNetloc (lit "//" ++ rest.filter (!isUnsafe ·)) =
      ((rest.filter (!isUnsafe ·)).takeWhile (!endsNetloc ·),
        (rest.filter (!isUnsafe ·)).dropWhile (!endsNetloc ·)) := by
    have hstarts : startsWith (lit "//" ++ rest.filter (!isUnsafe ·)) (lit "//") = true :=
      List.isPrefixOf_iff_prefix.mpr (List.prefix_append _ _)
    rw [splitNetloc, hstarts, if_pos rfl]
    rfl
  unfold urlsplit at h
  rw [hkept] at h
  dsimp only at h
  rw [splitScheme_https] at h
  dsimp only at h
  rw [hslashes] at h
  obtain ⟨⟨⟩, -, h⟩ := Except.bind_eq_ok.mp h
  obtain ⟨⟨⟩, -, h⟩ := Except.bind_eq_ok.mp h
  cases h
  exact ⟨rfl, rfl⟩

/-- A URL that names a scheme, and a location without `@`, has no user information. -/
theorem userinfo_eq_none_of_urlsplit {netloc rest : Str} {parsed : SplitResult}
    (hnetloc : atSign ∉ netloc) (hrest : rest.head? = some 0x2F)
    (h : urlsplit (lit "https://" ++ (netloc ++ rest)) = .ok parsed) :
    parsed.username = none ∧ parsed.password = none := by
  apply parsed.userinfo_eq_none
  rw [(urlsplit_https h).2]
  obtain ⟨tail, rfl⟩ : ∃ tail, rest = 0x2F :: tail := by
    cases rest with
    | nil => cases hrest
    | cons c tail => exact ⟨tail, by rw [Option.some.inj hrest]⟩
  -- the location ends at the slash at the latest
  have hslash : (!isUnsafe 0x2F) = true ∧ (!endsNetloc 0x2F) = false := by decide
  have hcons : (0x2F :: tail).filter (!isUnsafe ·) = 0x2F :: tail.filter (!isUnsafe ·) :=
    List.filter_cons_of_pos hslash.1
  rw [List.filter_append, hcons]
  intro hmem
  have hends : ∀ s : Str, (s ++ 0x2F :: tail.filter (!isUnsafe ·)).takeWhile (!endsNetloc ·) =
      s.takeWhile (!endsNetloc ·) := by
    intro s
    have hstop : (0x2F :: tail.filter (!isUnsafe ·)).takeWhile (!endsNetloc ·) = [] :=
      List.takeWhile_cons_of_neg (Bool.eq_false_iff.mp hslash.2)
    rw [List.takeWhile_append, hstop, List.append_nil]
    split_ifs with hlength
    · exact ((List.takeWhile_prefix _).eq_of_length hlength).symm
    · rfl
  rw [hends] at hmem
  exact hnetloc (List.mem_of_mem_filter ((List.takeWhile_sublist _).subset hmem))

end

end Python
