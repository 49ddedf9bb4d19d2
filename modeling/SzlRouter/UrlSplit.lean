/-
`urllib.parse.urlsplit`, and what it makes of a network location.

`none` is the `ValueError` of the standard library.  Lower case and compatibility
normalisation outside ASCII come from the interpreter's Unicode tables and are
parameters.

* `urlsplit_path` — the path has no delimiter in it;
* `urlsplit_plain` — a location without delimiters, and a path, are read as written.
-/
import SzlRouter.IpAddress
import SzlRouter.SplitJoin

namespace Py

/-- The Unicode tables that a URL is read with. -/
structure UrlTables where
  /-- `s.lower()`. -/
  lower : Str → Str
  /-- `unicodedata.normalize("NFKC", s)`. -/
  nfkc : Str → Str

/-- `SplitResult`. -/
structure SplitUrl where
  scheme : Str
  netloc : Str
  path : Str
  query : Str
  fragment : Str

namespace SplitUrl

/-- `scheme_chars`. -/
def isSchemeChar (c : CodePoint) : Bool :=
  Str.isAlnum c ∨ c = chr '+' ∨ c = chr '-' ∨ c = chr '.'

/-- `url[0].isascii() and url[0].isalpha()`. -/
def startsAlpha : Str → Bool
  | [] => false
  | c :: _ => Str.isAlnum c && !Str.isDigit c

/-- The scheme before the first colon, and the rest. -/
def splitScheme (url : Str) : Str × Str :=
  let (before, found, rest) := Str.partition (chr ':') url
  if found ∧ startsAlpha before ∧ before.all isSchemeChar then (Str.lower before, rest)
  else ([], url)

/-- The delimiters that end a network location. -/
def endsNetloc (c : CodePoint) : Bool := c = chr '/' ∨ c = chr '?' ∨ c = chr '#'

/-- `s.rpartition(c)[2]`. -/
def afterLast (c : CodePoint) (s : Str) : Str := (s.reverse.takeWhile (· ≠ c)).reverse

/-- `_check_bracketed_host`. -/
def bracketedHost (host : Str) : Bool :=
  if Str.startsWith host (lit "v") then
    let (version, found, rest) := Str.partition (chr '.') (host.drop 1)
    found ∧ version ≠ [] ∧ version.all (fun c => (IpAddress.hexDigit c).isSome) ∧ rest ≠ [] ∧
      chr '\n' ∉ rest
  else match IpAddress.ipAddress host with
    | some (.v6 _) => true
    | _ => false

/-- `_check_bracketed_netloc`. -/
def bracketedNetloc (netloc : Str) : Bool :=
  let hostinfo := afterLast (chr '@') netloc
  let (before, found, bracketed) := Str.partition (chr '[') hostinfo
  if found then
    let (host, _, port) := Str.partition (chr ']') bracketed
    if before ≠ [] then false
    else if port ≠ [] ∧ ¬Str.startsWith port (lit ":") then false
    else bracketedHost host
  else bracketedHost (Str.partition (chr ':') hostinfo).1

/-- The bracket rules of `urlsplit`. -/
def bracketsOk (netloc : Str) : Bool :=
  if chr '[' ∈ netloc ∧ chr ']' ∈ netloc then bracketedNetloc netloc
  else decide (chr '[' ∉ netloc ∧ chr ']' ∉ netloc)

/-- `_checknetloc`. -/
def checkNetloc (T : UrlTables) (netloc : Str) : Bool :=
  if netloc.all (·.val < 128) then true
  else
    let n := netloc.filter fun c => c ≠ chr '@' ∧ c ≠ chr ':' ∧ c ≠ chr '#' ∧ c ≠ chr '?'
    let n' := T.nfkc n
    n = n' ∨ ∀ c ∈ lit "/?#@:", c ∉ n'

/-- The network location after `//`, and the rest. -/
def splitNetloc (url : Str) : Str × Str :=
  if Str.startsWith url (lit "//") then
    ((url.drop 2).takeWhile (!endsNetloc ·), (url.drop 2).dropWhile (!endsNetloc ·))
  else ([], url)

/-- `urlsplit`. -/
def urlsplit (T : UrlTables) (url : Str) : Option SplitUrl :=
  let url := url.dropWhile (·.val ≤ 0x20)
  let url := url.filter fun c => c ≠ chr '\t' ∧ c ≠ chr '\r' ∧ c ≠ chr '\n'
  let (scheme, url) := splitScheme url
  let (netloc, url) := splitNetloc url
  if bracketsOk netloc = false then none
  else
    let (url, _, fragment) := Str.partition (chr '#') url
    let (url, _, query) := Str.partition (chr '?') url
    if checkNetloc T netloc = false then none
    else some ⟨scheme, netloc, url, query, fragment⟩

/-- `_userinfo`: the user name and the password. -/
def userinfo (u : SplitUrl) : Option (Str × Option Str) :=
  if chr '@' ∈ u.netloc then
    let info := u.netloc.take (u.netloc.length - (afterLast (chr '@') u.netloc).length - 1)
    let (name, found, password) := Str.partition (chr ':') info
    some (name, if found then some password else none)
  else none

/-- `username or ""`. -/
def username (u : SplitUrl) : Str := (u.userinfo.map Prod.fst).getD []

/-- `password or ""`. -/
def password (u : SplitUrl) : Str := (u.userinfo.bind Prod.snd).getD []

/-- `_hostinfo`: the host and the text of the port. -/
def hostinfo (u : SplitUrl) : Str × Str :=
  let info := afterLast (chr '@') u.netloc
  let (_, found, bracketed) := Str.partition (chr '[') info
  if found then
    let (host, _, port) := Str.partition (chr ']') bracketed
    (host, (Str.partition (chr ':') port).2.2)
  else
    let (host, _, port) := Str.partition (chr ':') info
    (host, port)

/-- `hostname or ""`: a scope keeps its case. -/
def hostname (T : UrlTables) (u : SplitUrl) : Str :=
  let (host, found, zone) := Str.partition (chr '%') u.hostinfo.1
  if u.hostinfo.1 = [] then []
  else T.lower host ++ (if found then lit "%" else []) ++ zone

/-- `port`; a missing one is `some none`. -/
def port (u : SplitUrl) : Option (Option ℕ) :=
  let text := u.hostinfo.2
  if text = [] then some none
  else if text.all Str.isDigit = false then none
  else if digitsVal text ≤ 65535 then some (some (digitsVal text))
  else none

/-- `uses_netloc`, the empty scheme left out. -/
def usesNetloc : List Str :=
  [lit "ftp", lit "http", lit "gopher", lit "nntp", lit "telnet", lit "imap", lit "wais",
    lit "file", lit "mms", lit "https", lit "shttp", lit "snews", lit "prospero", lit "rtsp",
    lit "rtsps", lit "rtspu", lit "rsync", lit "svn", lit "svn+ssh", lit "sftp", lit "nfs",
    lit "git", lit "git+ssh", lit "ws", lit "wss", lit "itms-services"]

/-- `urlunsplit`. -/
def unsplit (u : SplitUrl) : Str :=
  let rooted := u.netloc ≠ [] ∨
    (u.scheme ∈ usesNetloc ∧ Str.startsWith u.path (lit "//") = false)
  let url :=
    if rooted then
      lit "//" ++ u.netloc ++
        (if u.path ≠ [] ∧ ¬Str.startsWith u.path (lit "/") then lit "/" else []) ++ u.path
    else u.path
  let url := if u.scheme = [] then url else u.scheme ++ lit ":" ++ url
  let url := if u.query = [] then url else url ++ lit "?" ++ u.query
  if u.fragment = [] then url else url ++ lit "#" ++ u.fragment

/-- The characters that end a part of a URL, or that `urlsplit` removes. -/
def pathDelimiters : Str := [chr '?', chr '#', chr '\t', chr '\r', chr '\n']

def netlocDelimiters : Str := [chr '/', chr '[', chr ']', chr '@', chr ':'] ++ pathDelimiters

/-- A location that is read as written: ASCII, without a delimiter. -/
def PlainNetloc (netloc : Str) : Prop := ∀ c ∈ netloc, c.val < 128 ∧ c ∉ netlocDelimiters

/-- A path that is read as written. -/
structure PlainPath (path : Str) : Prop where
  rooted : path.head? = some (chr '/')
  plain : ∀ c ∈ path, c ∉ pathDelimiters

/-- What a partition leaves in front is in the text. -/
theorem mem_of_mem_partition {d c : CodePoint} {s : Str}
    (h : c ∈ (Str.partition d s).1 ∨ c ∈ (Str.partition d s).2.2) : c ∈ s := by
  by_cases hd : d ∈ s
  · rw [Str.partition_eq_append (Str.partition_found.mpr hd), List.mem_append, List.mem_cons]
    exact h.imp id .inr
  · rw [Str.partition_of_not_mem hd] at h
    exact h.resolve_right List.not_mem_nil

/-- The path of a URL that is read has no delimiter: the fragment and the query were taken off
behind it. -/
theorem urlsplit_path {T : UrlTables} {url : Str} {u : SplitUrl} (h : urlsplit T url = some u) :
    ∀ c ∈ u.path, c ∉ pathDelimiters := by
  rw [urlsplit] at h
  dsimp only at h
  split_ifs at h
  obtain rfl := Option.some.inj h
  intro c hc
  have hquery : c ≠ chr '?' := fun heq => Str.not_mem_partition_fst _ (heq ▸ hc)
  have hc := mem_of_mem_partition (.inl hc)
  have hfragment : c ≠ chr '#' := fun heq => Str.not_mem_partition_fst _ (heq ▸ hc)
  have hc := mem_of_mem_partition (.inl hc)
  -- what is left is in the text without the characters that are removed
  have hrest : ∀ s : Str, c ∈ (splitNetloc s).2 → c ∈ s := by
    intro s
    rw [splitNetloc]
    split_ifs
    · exact fun h => List.mem_of_mem_drop ((List.dropWhile_suffix _).subset h)
    · exact id
  have hscheme : ∀ s : Str, c ∈ (splitScheme s).2 → c ∈ s := by
    intro s
    rw [splitScheme]
    dsimp only
    split_ifs
    · exact fun h => mem_of_mem_partition (.inr h)
    · exact id
  have hkept := (List.mem_filter.mp (hscheme _ (hrest _ hc))).2
  simp only [decide_eq_true_eq] at hkept
  simp [pathDelimiters, hquery, hfragment, hkept]

theorem splitNetloc_plain {netloc path : Str} (hnetloc : PlainNetloc netloc)
    (hpath : PlainPath path) : splitNetloc (lit "//" ++ netloc ++ path) = (netloc, path) := by
  have hends : ∀ c ∈ netloc, (!endsNetloc c) = true := by
    intro c hc
    have hplain := (hnetloc c hc).2
    simp only [netlocDelimiters, pathDelimiters, List.mem_append, List.mem_cons, List.not_mem_nil,
      or_false, not_or] at hplain
    simp [endsNetloc, hplain]
  obtain ⟨rest, rfl⟩ : ∃ rest, path = chr '/' :: rest := by
    cases path with
    | nil => cases hpath.rooted
    | cons c rest => exact ⟨rest, congrArg (· :: rest) (Option.some.inj hpath.rooted)⟩
  have hslash : (!endsNetloc (chr '/')) = false := by decide
  rw [splitNetloc, List.append_assoc,
    if_pos (show Str.startsWith (lit "//" ++ _) _ = true from rfl),
    show (lit "//" ++ (netloc ++ chr '/' :: rest)).drop 2 = netloc ++ chr '/' :: rest from rfl,
    List.takeWhile_append_of_pos hends, List.dropWhile_append_of_pos hends,
    List.takeWhile_cons, List.dropWhile_cons, hslash]
  simp

/-- A location without delimiters, and a path, are read as written: nothing in them is taken for
a query or a fragment, and the location is all of the network part. -/
theorem urlsplit_plain (T : UrlTables) {netloc path : Str} (hnetloc : PlainNetloc netloc)
    (hpath : PlainPath path) : urlsplit T (lit "https://" ++ netloc ++ path) =
      some ⟨lit "https", netloc, path, [], []⟩ := by
  have hnotin : ∀ d ∈ pathDelimiters, d ∉ path := fun d hd hmem => hpath.plain d hmem hd
  have hbrackets : bracketsOk netloc = true := by
    have hopen : chr '[' ∉ netloc := fun h => (hnetloc _ h).2 (by decide)
    have hclose : chr ']' ∉ netloc := fun h => (hnetloc _ h).2 (by decide)
    simp [bracketsOk, hopen, hclose]
  have hcheck : checkNetloc T netloc = true := by
    rw [checkNetloc, if_pos]
    exact List.all_eq_true.mpr fun c hc => decide_eq_true (hnetloc c hc).1
  have hscheme : (lit "https://").all (fun c => decide (c ∉ pathDelimiters)) = true := by decide
  -- no character is removed
  have hkept : (lit "https://" ++ netloc ++ path).filter
      (fun c => c ≠ chr '\t' ∧ c ≠ chr '\r' ∧ c ≠ chr '\n') = lit "https://" ++ netloc ++ path := by
    refine List.filter_eq_self.mpr fun c hc => ?_
    have hplain : c ∉ pathDelimiters := by
      simp only [List.mem_append] at hc
      rcases hc with (hc | hc) | hc
      · exact of_decide_eq_true (List.all_eq_true.mp hscheme c hc)
      · exact fun h => (hnetloc c hc).2 (List.mem_append_right _ h)
      · exact hpath.plain c hc
    simp only [pathDelimiters, List.mem_cons, List.not_mem_nil, or_false, not_or] at hplain
    simp [hplain]
  have hsplit : splitScheme (lit "https://" ++ netloc ++ path) =
      (lit "https", lit "//" ++ netloc ++ path) := by
    have hcut : Str.partition (chr ':') (lit "https://" ++ netloc ++ path) =
        (lit "https", true, lit "//" ++ netloc ++ path) :=
      @Str.partition_append (chr ':') (lit "https") (by decide) (lit "//" ++ netloc ++ path)
    rw [splitScheme, hcut]
    rfl
  rw [urlsplit]
  have hfront : (lit "https://" ++ netloc ++ path).dropWhile (·.val ≤ 0x20) =
    lit "https://" ++ netloc ++ path := rfl
  dsimp only
  rw [hfront, hkept, hsplit]
  dsimp only
  rw [splitNetloc_plain hnetloc hpath]
  dsimp only
  rw [if_neg (by simp [hbrackets]), Str.partition_of_not_mem (hnotin _ (by decide))]
  dsimp only
  rw [Str.partition_of_not_mem (hnotin _ (by decide)), if_neg (by simp [hcheck])]

end SplitUrl

end Py
