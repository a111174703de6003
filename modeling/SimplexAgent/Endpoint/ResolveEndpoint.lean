import SimplexAgent.Endpoint.RetryPolicy
import SimplexAgent.Verified.Segments
import Mathlib.Data.List.DropRight

/-!
# Where a request goes

`resolve_endpoint` of `model_request.hpp` takes a base URL apart by hand: the scheme in front,
the first slash, the last colon before it. `BaseUrl` is what such a URL is written from, a
scheme, a host, a port and a path prefix, each of which may be missing but the host, and
`BaseUrl.text` writes it. Texts are lists of characters.

The last colon of an authority is the one before its port, unless the authority is a bracketed
address and has no port. One slash in front of the request path is recognised, not two.
`resolveEndpoint_iff` says that these are the two ways for a URL to be taken apart wrongly.
-/

namespace SimplexAgent.Endpoint

open Verified.Segments

/-! ## The code -/

/-- `ModelEndpoint`, as far as it says where a request goes. -/
structure ModelEndpoint where
  baseUrl : List Char
  requestPath : List Char

def defaultPort (tls : Bool) : List Char := if tls then ['4', '4', '3'] else ['8', '0']

structure ResolvedEndpoint where
  host : List Char
  port : List Char
  target : List Char
  tls : Bool

/-- `authority`: the default port of the scheme is left out. -/
def ResolvedEndpoint.authority (resolved : ResolvedEndpoint) : List Char :=
  if resolved.port = defaultPort resolved.tls then resolved.host
  else resolved.host ++ ':' :: resolved.port

/-- The schemes in the order in which they are tried, and whether they ask for TLS. -/
def schemes : List (List Char × Bool) :=
  [(['w', 's', 's', ':', '/', '/'], true), (['w', 's', ':', '/', '/'], false),
    (['h', 't', 't', 'p', 's', ':', '/', '/'], true), (['h', 't', 't', 'p', ':', '/', '/'], false)]

/-- The TLS flag and what follows the scheme; TLS is assumed when there is none. -/
def stripScheme (baseUrl : List Char) : Bool × List Char :=
  match schemes.find? fun scheme => scheme.1.isPrefixOf baseUrl with
  | some scheme => (scheme.2, baseUrl.drop scheme.1.length)
  | none => (true, baseUrl)

/-- The host, and the port after the last colon. -/
def splitPort (authority : List Char) : List Char × Option (List Char) :=
  if ':' ∈ authority then
    ((authority.rdropWhile (· ≠ ':')).dropLast, some (authority.rtakeWhile (· ≠ ':')))
  else (authority, none)

def joinTarget (urlPrefix requestPath : List Char) : List Char :=
  let path := if requestPath = [] then ['/'] else requestPath
  let path := if path.head? = some '/' then path else '/' :: path
  let cleanPrefix := (urlPrefix.dropWhile (· = '/')).rdropWhile (· = '/')
  if cleanPrefix = [] then path else '/' :: cleanPrefix ++ path

/-- `resolve_endpoint`. -/
def resolveEndpoint (endpoint : ModelEndpoint) : Except HttpRequestException ResolvedEndpoint :=
  let (tls, rest) := stripScheme endpoint.baseUrl
  let (host, port) := splitPort (rest.takeWhile (· ≠ '/'))
  if host = [] then
    .error {
      stage := .createRequest
      message := "base_url resolves to no host: \"" ++ String.ofList endpoint.baseUrl ++ "\"" }
  else
    .ok {
      host := host
      port := port.getD (defaultPort tls)
      target := joinTarget (rest.dropWhile (· ≠ '/')).tail endpoint.requestPath
      tls := tls }

/-! ## Base URLs -/

inductive Scheme where
  | http
  | https
  | ws
  | wss

def Scheme.tls : Scheme → Bool
  | http | ws => false
  | https | wss => true

def Scheme.text : Scheme → List Char
  | http => ['h', 't', 't', 'p', ':', '/', '/']
  | https => ['h', 't', 't', 'p', 's', ':', '/', '/']
  | ws => ['w', 's', ':', '/', '/']
  | wss => ['w', 's', 's', ':', '/', '/']

def isHostChar (c : Char) : Bool := c ≠ '/' && c ≠ '[' && c ≠ ']'

/-- A name or an IPv4 address, or an IPv6 address in brackets. -/
inductive UrlHost where
  | named (name : List Char) (hName : name ≠ []) (hChars : ∀ c ∈ name, isHostChar c = true)
      (hPlain : ':' ∉ name)
  | bracketed (address : List Char) (hChars : ∀ c ∈ address, isHostChar c = true)
      (hColon : ':' ∈ address)

def UrlHost.text : UrlHost → List Char
  | named name _ _ _ => name
  | bracketed address _ _ => '[' :: (address ++ [']'])

def UrlHost.isBracketed : UrlHost → Bool
  | named _ _ _ _ => false
  | bracketed _ _ _ => true

structure UrlPort where
  text : List Char
  ne_nil : text ≠ []
  digits : ∀ c ∈ text, c.isDigit = true

/-- A path prefix: what is between its outer slashes, and how many of these there are. -/
structure UrlPath where
  lead : Nat
  body : List Char
  trail : Nat
  absent : lead = 0 → body = [] ∧ trail = 0
  front : body.head? ≠ some '/'
  back : body.getLast? ≠ some '/'

def UrlPath.text (path : UrlPath) : List Char :=
  List.replicate path.lead '/' ++ (path.body ++ List.replicate path.trail '/')

structure BaseUrl where
  scheme : Option Scheme
  host : UrlHost
  port : Option UrlPort
  path : UrlPath

namespace BaseUrl

def tls (url : BaseUrl) : Bool := (url.scheme.map Scheme.tls).getD true

def portText (url : BaseUrl) : List Char := (url.port.map UrlPort.text).getD (defaultPort url.tls)

/-- The host, and a colon and the port where there is one. -/
def authority (url : BaseUrl) : List Char :=
  url.host.text ++ ((url.port.map fun port => ':' :: port.text).getD [])

def text (url : BaseUrl) : List Char :=
  (url.scheme.map Scheme.text).getD [] ++ (url.authority ++ url.path.text)

end BaseUrl

def oneSlash (urlPrefix requestPath : List Char) : List Char :=
  let path := '/' :: requestPath.dropWhile (· = '/')
  if urlPrefix = [] then path else '/' :: urlPrefix ++ path

def NamesServer (tls : Bool) (text : List Char) (host : UrlHost) (port : UrlPort) : Prop :=
  text = host.text ++ ':' :: port.text ∨ text = host.text ∧ port.text = defaultPort tls

structure ResolvesTo (url : BaseUrl) (requestPath : List Char) (resolved : ResolvedEndpoint) :
    Prop where
  host : resolved.host = url.host.text
  port : resolved.port = url.portText
  tls : resolved.tls = url.tls
  target : resolved.target = oneSlash url.path.body requestPath
  authority : ∀ host port, NamesServer resolved.tls resolved.authority host port ↔
    host.text = url.host.text ∧ port.text = url.portText

/-! ## Cutting texts -/

theorem splitPort_colon (host : List Char) {port : List Char} (hPort : ':' ∉ port) :
    splitPort (host ++ ':' :: port) = (host, some port) := by
  have hPlain : ∀ c ∈ port.reverse, (decide (c ≠ ':')) = true := by
    intro c hMem
    have hIn := List.mem_reverse.mp hMem
    rw [decide_eq_true_iff]
    rintro rfl
    exact hPort hIn
  have hReverse : (host ++ ':' :: port).reverse = port.reverse ++ ':' :: host.reverse := by simp
  obtain ⟨hTake, hDrop⟩ := span_front (p := fun c => decide (c ≠ ':')) (':' :: host.reverse)
    hPlain (by simp)
  rw [splitPort, if_pos (by simp), List.rdropWhile, List.rtakeWhile, hReverse, hTake, hDrop]
  simp

theorem strip_slashes {body : List Char} (lead trail : Nat) (hFront : body.head? ≠ some '/')
    (hBack : body.getLast? ≠ some '/') :
    ((List.replicate lead '/' ++ (body ++ List.replicate trail '/')).dropWhile
      (· = '/')).rdropWhile (· = '/') = body := by
  have hLead : (List.replicate lead '/' ++ (body ++ List.replicate trail '/')).dropWhile
      (· = '/') = (body ++ List.replicate trail '/').dropWhile (· = '/') :=
    List.dropWhile_append_of_pos (by simp [List.mem_replicate])
  rw [hLead]
  cases hBody : body with
  | nil =>
    have hAll : (List.replicate trail '/').dropWhile (· = '/') = [] := by
      rw [List.dropWhile_eq_nil_iff]
      simp [List.mem_replicate]
    rw [List.nil_append, hAll]
    rfl
  | cons c rest =>
    have hFirst : ¬(decide (c = '/')) = true := by
      rw [decide_eq_true_iff]
      rintro rfl
      exact hFront (by rw [hBody]; rfl)
    rw [List.cons_append, List.dropWhile_cons_of_neg (p := fun x => decide (x = '/')) hFirst, ← List.cons_append, ← hBody,
      List.rdropWhile, List.reverse_append, List.reverse_replicate,
      List.dropWhile_append_of_pos (by simp [List.mem_replicate])]
    have hLast : body.reverse.dropWhile (fun c => decide (c = '/')) = body.reverse := by
      cases hReverse : body.reverse with
      | nil => rfl
      | cons d others =>
        refine List.dropWhile_cons_of_neg (p := fun x => decide (x = '/')) ?_
        rw [decide_eq_true_iff]
        rintro rfl
        exact hBack (by rw [← List.head?_reverse, hReverse]; rfl)
    rw [hLast, List.reverse_reverse]

/-! ## Taking a base URL apart -/

theorem isHostChar_slash {c : Char} (h : isHostChar c = true) : c ≠ '/' := by
  rintro rfl
  cases h

theorem UrlHost.text_ne_nil (host : UrlHost) : host.text ≠ [] := by
  cases host with
  | named name hName hChars hPlain => exact hName
  | bracketed address hChars hColon => simp [UrlHost.text]

theorem UrlHost.slash_not_mem (host : UrlHost) : '/' ∉ host.text := by
  intro hMem
  cases host with
  | named name hName hChars hPlain => exact isHostChar_slash (hChars _ hMem) rfl
  | bracketed address hChars hColon =>
    simp only [UrlHost.text, List.mem_cons, List.mem_append, List.not_mem_nil, or_false] at hMem
    rcases hMem with h | h | h
    · exact absurd h (by decide)
    · exact isHostChar_slash (hChars _ h) rfl
    · exact absurd h (by decide)

theorem UrlPort.not_mem (port : UrlPort) {c : Char} (h : c.isDigit = false) : c ∉ port.text := by
  intro hMem
  rw [port.digits c hMem] at h
  cases h

theorem UrlPath.text_head (path : UrlPath) : ∀ c, path.text.head? = some c → c = '/' := by
  intro c hHead
  cases hLead : path.lead with
  | zero =>
    obtain ⟨hBody, hTrail⟩ := path.absent hLead
    simp [UrlPath.text, hLead, hBody, hTrail] at hHead
  | succ lead => simpa [UrlPath.text, hLead, List.replicate_succ, eq_comm] using hHead

theorem BaseUrl.not_scheme (url : BaseUrl) (letters : List Char)
    (hLetters : letters.all Char.isLower = true) (hNe : letters ≠ []) :
    ¬(letters ++ [':', '/', '/']) <+: url.authority ++ url.path.text := by
  rintro ⟨rest, hText⟩
  rw [List.all_eq_true] at hLetters
  rw [BaseUrl.authority, List.append_assoc, List.append_assoc] at hText
  cases hHost : url.host with
  | bracketed address hChars hColon =>
    rw [hHost] at hText
    obtain ⟨c, others, rfl⟩ := List.exists_cons_of_ne_nil hNe
    have hFirst : c = '[' := (List.cons.inj hText).1
    exact absurd (hLetters c (by simp)) (by rw [hFirst]; decide)
  | named name hName hChars hPlain =>
    -- the first colon or slash ends the letters here and the name there
    let p : Char → Bool := fun c => c ≠ ':' && c ≠ '/'
    rw [hHost] at hText
    have hLeft := span_front (p := p) ([':', '/', '/'] ++ rest)
      (show ∀ c ∈ letters, p c = true by
        intro c hMem
        have hLower := hLetters c hMem
        simp only [p, Bool.and_eq_true, decide_eq_true_iff]
        constructor <;> (rintro rfl; exact absurd hLower (by decide)))
      (by
        intro c hc
        cases hc
        decide)
    have hRight := span_front (p := p)
      ((url.port.map fun port => ':' :: port.text).getD [] ++ url.path.text)
      (show ∀ c ∈ name, p c = true by
        intro c hMem
        simp only [p, Bool.and_eq_true, decide_eq_true_iff]
        exact ⟨fun h => hPlain (h ▸ hMem), isHostChar_slash (hChars c hMem)⟩)
      (by
        intro c hc
        cases hPort : url.port with
        | none =>
          rw [hPort] at hc
          rw [url.path.text_head c hc]
          decide
        | some port =>
          rw [hPort] at hc
          cases hc
          decide)
    have hTail := hRight.2
    rw [show name = (UrlHost.named name hName hChars hPlain).text from rfl, ← hText,
      hLeft.2] at hTail
    cases hPort : url.port with
    | none =>
      rw [hPort] at hTail
      have hHead := url.path.text_head ':' (by
        rw [show url.path.text = _ from hTail.symm]
        rfl)
      exact absurd hHead (by decide)
    | some port =>
      rw [hPort] at hTail
      obtain ⟨d, digits, hDigits⟩ := List.exists_cons_of_ne_nil port.ne_nil
      rw [Option.map_some, Option.getD_some, hDigits] at hTail
      have hSlash : '/' = d := (List.cons.inj (List.cons.inj hTail).2).1
      exact port.not_mem (c := '/') (by decide) (by rw [hDigits, hSlash]; simp)

theorem stripScheme_text (url : BaseUrl) :
    stripScheme url.text = (url.tls, url.authority ++ url.path.text) := by
  rw [BaseUrl.text, BaseUrl.tls]
  cases url.scheme with
  | some scheme => cases scheme <;> simp [stripScheme, schemes, Scheme.text, Scheme.tls]
  | none =>
    have hNone : schemes.find? (fun scheme =>
        scheme.1.isPrefixOf (url.authority ++ url.path.text)) = none := by
      rw [List.find?_eq_none]
      intro scheme hMem hPrefix
      rw [List.isPrefixOf_iff_prefix] at hPrefix
      simp only [schemes, List.mem_cons, List.not_mem_nil, or_false] at hMem
      rcases hMem with rfl | rfl | rfl | rfl
      · exact url.not_scheme ['w', 's', 's'] (by decide) (List.cons_ne_nil _ _) hPrefix
      · exact url.not_scheme ['w', 's'] (by decide) (List.cons_ne_nil _ _) hPrefix
      · exact url.not_scheme ['h', 't', 't', 'p', 's'] (by decide) (List.cons_ne_nil _ _) hPrefix
      · exact url.not_scheme ['h', 't', 't', 'p'] (by decide) (List.cons_ne_nil _ _) hPrefix
    simp [stripScheme, hNone]

theorem resolveEndpoint_text (url : BaseUrl) (requestPath : List Char) :
    resolveEndpoint ⟨url.text, requestPath⟩ =
      if (splitPort url.authority).1 = [] then
        .error {
          stage := .createRequest
          message := "base_url resolves to no host: \"" ++ String.ofList url.text ++ "\"" }
      else
        .ok {
          host := (splitPort url.authority).1
          port := (splitPort url.authority).2.getD (defaultPort url.tls)
          target := joinTarget url.path.text.tail requestPath
          tls := url.tls } := by
  have hAuthority : ∀ c ∈ url.authority, (decide (c ≠ '/')) = true := by
    intro c hMem
    rw [decide_eq_true_iff]
    rintro rfl
    rcases List.mem_append.mp hMem with h | h
    · exact url.host.slash_not_mem h
    · cases hPort : url.port with
      | none => simp [hPort] at h
      | some port =>
        rw [hPort, Option.map_some, Option.getD_some, List.mem_cons] at h
        rcases h with h | h
        · exact absurd h (by decide)
        · exact port.not_mem (by decide) h
  obtain ⟨hTake, hDrop⟩ := span_front (p := fun c => decide (c ≠ '/')) url.path.text hAuthority
    (by
      intro c hc
      rw [url.path.text_head c hc]
      decide)
  rw [resolveEndpoint, stripScheme_text]
  dsimp only
  rw [hTake, hDrop]

/-! ## The target -/

theorem joinTarget_path (path : UrlPath) (requestPath : List Char) :
    joinTarget path.text.tail requestPath = oneSlash path.body requestPath ↔
      ¬['/', '/'] <+: requestPath := by
  have hClean : (path.text.tail.dropWhile (· = '/')).rdropWhile (· = '/') = path.body := by
    cases hLead : path.lead with
    | zero =>
      obtain ⟨hBody, hTrail⟩ := path.absent hLead
      simp [UrlPath.text, hLead, hBody, hTrail]
    | succ lead =>
      rw [UrlPath.text, hLead, List.replicate_succ, List.cons_append, List.tail_cons]
      exact strip_slashes lead path.trail path.front path.back
  have hJoin : ∀ given : List Char, (if path.body = [] then given else '/' :: path.body ++ given) =
        oneSlash path.body requestPath ↔ given = '/' :: requestPath.dropWhile (· = '/') := by
    intro given
    rw [oneSlash]
    by_cases hBody : path.body = []
    · simp [hBody]
    · simp [hBody]
  rw [joinTarget, hClean, hJoin]
  cases requestPath with
  | nil => simp
  | cons c rest =>
    by_cases hSlash : c = '/'
    · subst hSlash
      cases rest with
      | nil => simp
      | cons d others =>
        by_cases hSecond : d = '/'
        · subst hSecond
          have hLength := (List.dropWhile_sublist (· = '/') (l := others)).length_le
          have hFewer : '/' :: '/' :: others ≠ '/' :: others.dropWhile (· = '/') := by
            intro hEq
            have hSame := congrArg List.length hEq
            simp only [List.length_cons] at hSame
            omega
          simpa using hFewer
        · have hNot : ¬['/', '/'] <+: '/' :: d :: others := by
            simpa [List.cons_prefix_cons, eq_comm] using hSecond
          simp [hSecond, hNot]
    · have hNot : ¬['/', '/'] <+: c :: rest := by
        rw [List.cons_prefix_cons]
        exact fun h => hSlash h.1.symm
      simp [hSlash, hNot]

/-! ## The authority -/

theorem UrlHost.text_getLast (host : UrlHost) (hColon : ':' ∈ host.text) :
    host.text.getLast host.text_ne_nil = ']' := by
  cases host with
  | named name hName hChars hPlain => exact absurd hColon hPlain
  | bracketed address hChars hColon => simp [UrlHost.text]

theorem UrlHost.text_ne_port (host other : UrlHost) (port : UrlPort) :
    host.text ≠ other.text ++ ':' :: port.text := by
  intro hEq
  have hLast := host.text_getLast (by rw [hEq]; simp)
  obtain ⟨d, hMem, hBracket⟩ : ∃ d ∈ port.text, d = ']' := by
    refine ⟨port.text.getLast port.ne_nil, List.getLast_mem _, ?_⟩
    rw [← hLast]
    simp [hEq, List.getLast_cons port.ne_nil]
  exact port.not_mem (by decide) (hBracket ▸ hMem)

theorem namesServer_iff {tls : Bool} {host : UrlHost} {port : UrlPort} {text : List Char}
    (hNames : NamesServer tls text host port) (host' : UrlHost) (port' : UrlPort) :
    NamesServer tls text host' port' ↔ host'.text = host.text ∧ port'.text = port.text := by
  constructor
  · intro hNames'
    rcases hNames with hText | ⟨hText, hPort⟩ <;> rcases hNames' with hText' | ⟨hText', hPort'⟩
    · have hSplit := splitPort_colon host.text (port.not_mem (c := ':') (by decide))
      rw [← hText, hText', splitPort_colon _ (port'.not_mem (by decide))] at hSplit
      exact ⟨congrArg Prod.fst hSplit, Option.some.inj (congrArg Prod.snd hSplit)⟩
    · exact absurd (hText'.symm.trans hText) (host'.text_ne_port host port)
    · exact absurd (hText.symm.trans hText') (host.text_ne_port host' port')
    · exact ⟨hText'.symm.trans hText, hPort'.trans hPort.symm⟩
  · rintro ⟨hHost, hPort⟩
    rw [NamesServer, hHost, hPort]
    exact hNames

def defaultUrlPort (tls : Bool) : UrlPort where
  text := defaultPort tls
  ne_nil := by cases tls <;> decide
  digits := by cases tls <;> simp [defaultPort]

theorem authority_names (url : BaseUrl) {resolved : ResolvedEndpoint}
    (hHost : resolved.host = url.host.text) (hPort : resolved.port = url.portText)
    (host : UrlHost) (port : UrlPort) : NamesServer resolved.tls resolved.authority host port ↔
      host.text = url.host.text ∧ port.text = url.portText := by
  have hNames : NamesServer resolved.tls resolved.authority url.host
      (url.port.getD (defaultUrlPort url.tls)) := by
    have hText : (url.port.getD (defaultUrlPort url.tls)).text = resolved.port := by
      rw [hPort, BaseUrl.portText]
      cases url.port <;> rfl
    rw [NamesServer, hText, ResolvedEndpoint.authority, hHost]
    by_cases hDefault : resolved.port = defaultPort resolved.tls
    · rw [if_pos hDefault]
      exact .inr ⟨rfl, hDefault⟩
    · rw [if_neg hDefault]
      exact .inl rfl
  have hText : (url.port.getD (defaultUrlPort url.tls)).text = url.portText := by
    rw [BaseUrl.portText]
    cases url.port <;> rfl
  rw [namesServer_iff hNames, hText]

/-! ## When a URL is taken apart rightly -/

/-- The part before the last colon is the host, unless the colon is one of the address. -/
theorem splitPort_authority (url : BaseUrl) :
    ((url.host.isBracketed = true → url.port.isSome = true) ∧
        (splitPort url.authority).1 = url.host.text ∧
        (splitPort url.authority).2.getD (defaultPort url.tls) = url.portText) ∨
      url.host.isBracketed = true ∧ url.port = none ∧
        (splitPort url.authority).1 ≠ url.host.text := by
  rw [BaseUrl.authority, BaseUrl.portText]
  cases hPort : url.port with
  | some port =>
    have hSplit := splitPort_colon url.host.text (port.not_mem (c := ':') (by decide))
    exact .inl ⟨fun _ => rfl, congrArg Prod.fst hSplit, by simp [hSplit]⟩
  | none =>
    rw [Option.map_none, Option.getD_none, List.append_nil]
    cases hHost : url.host with
    | named name hName hChars hPlain =>
      left
      simp [splitPort, UrlHost.text, UrlHost.isBracketed, hPlain]
    | bracketed address hChars hColon =>
      refine .inr ⟨rfl, rfl, fun hEq => ?_⟩
      have hMem : ':' ∈ (UrlHost.bracketed address hChars hColon).text := by
        simp [UrlHost.text, hColon]
      rw [splitPort, if_pos hMem] at hEq
      have hDrop := (List.rdropWhile_prefix (fun c => decide (c ≠ ':'))
        (UrlHost.bracketed address hChars hColon).text).length_le
      have hShort := congrArg List.length hEq
      have hSome := List.length_pos_iff.mpr (UrlHost.bracketed address hChars hColon).text_ne_nil
      rw [List.length_dropLast] at hShort
      omega

/--
**Where a request goes.** For every base URL and every request path: the URL resolves to its
host, its port or the default port of its scheme, the flag of its scheme and the target with
one slash between prefix and path, and the authority names that host and that port again,
exactly when a bracketed address comes with a port and the request path does not begin with two
slashes.
-/
theorem resolveEndpoint_iff (url : BaseUrl) (requestPath : List Char) :
    (∃ resolved, resolveEndpoint ⟨url.text, requestPath⟩ = .ok resolved ∧
        ResolvesTo url requestPath resolved) ↔
      (url.host.isBracketed = true → url.port.isSome = true) ∧ ¬['/', '/'] <+: requestPath := by
  rw [resolveEndpoint_text]
  rcases splitPort_authority url with ⟨hSome, hHost, hPort⟩ | ⟨hBracketed, hNone, hHost⟩
  · rw [hHost, hPort, if_neg url.host.text_ne_nil]
    constructor
    · rintro ⟨resolved, hOk, hResolves⟩
      injection hOk with hOk
      subst hOk
      exact ⟨hSome, (joinTarget_path _ _).mp hResolves.target⟩
    · rintro ⟨-, hPath⟩
      exact ⟨_, rfl, rfl, rfl, rfl, (joinTarget_path _ _).mpr hPath, authority_names url rfl rfl⟩
  · constructor
    · rintro ⟨resolved, hOk, hResolves⟩
      split at hOk
      · cases hOk
      · injection hOk with hOk
        subst hOk
        exact absurd hResolves.host hHost
    · rintro ⟨hSome, -⟩
      have hPort := hSome hBracketed
      rw [hNone] at hPort
      cases hPort

/-! ### A bracketed address without a port -/

/-- `https://[::1]/v1`. -/
def loopbackUrl : BaseUrl where
  scheme := some .https
  host := .bracketed [':', ':', '1'] (by simp [isHostChar]) (by simp)
  port := none
  path := { lead := 1, body := ['v', '1'], trail := 0,
            absent := by simp, front := by simp, back := by simp }

/-- The last colon of the address is taken for the one before a port. -/
theorem loopbackUrl_misread : resolveEndpoint ⟨loopbackUrl.text, ['/', 'r']⟩ =
        .ok { host := ['[', ':'], port := ['1', ']'], target := ['/', 'v', '1', '/', 'r'],
              tls := true } ∧
      ¬∃ resolved, resolveEndpoint ⟨loopbackUrl.text, ['/', 'r']⟩ = .ok resolved ∧
        ResolvesTo loopbackUrl ['/', 'r'] resolved := by
  have hMisread : resolveEndpoint ⟨loopbackUrl.text, ['/', 'r']⟩ =
      .ok { host := ['[', ':'], port := ['1', ']'], target := ['/', 'v', '1', '/', 'r'],
            tls := true } := by rfl
  refine ⟨hMisread, ?_⟩
  rintro ⟨resolved, hOk, hResolves⟩
  rw [hMisread] at hOk
  injection hOk with hOk
  subst hOk
  exact absurd hResolves.host (by decide)

end SimplexAgent.Endpoint
