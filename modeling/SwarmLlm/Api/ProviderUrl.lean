import Mathlib.Data.List.Infix
import Mathlib.Data.List.TakeWhile
import SwarmLlm.Types

namespace SwarmLlm.Api

inductive IpAddr where
  | v4 (a b c d : UInt8)
  | v6 (s0 s1 s2 s3 s4 s5 s6 s7 : UInt16)
  deriving DecidableEq

-- The standard library's `is_private`, `is_link_local` and `is_loopback`.
def isPrivateV4 (a b : UInt8) : Bool :=
  a == 10 || (a == 172 && decide (16 ≤ b ∧ b ≤ 31)) || (a == 192 && b == 168) || (a == 169 && b == 254) || a == 127

def isPrivateIp : IpAddr → Bool
  | .v4 a b _ _ => isPrivateV4 a b
  | .v6 0 0 0 0 0 0xffff high _ => isPrivateV4 (high >>> 8).toUInt8 high.toUInt8
  | .v6 s0 s1 s2 s3 s4 s5 s6 s7 =>
    [s0, s1, s2, s3, s4, s5, s6, s7] == [0, 0, 0, 0, 0, 0, 0, 1] || s0 &&& 0xffc0 == 0xfe80 || s0 &&& 0xfe00 == 0xfc00

-- How an address is parsed and printed, and `to_lowercase`.
structure HostLibs where
  parseIp : List Char → Option IpAddr
  printIp : IpAddr → String
  lowercase : List Char → List Char

def afterScheme (baseUrl : List Char) : Option (List Char) :=
  if "https://".toList.isPrefixOf baseUrl then some (baseUrl.drop 8)
  else if "http://".toList.isPrefixOf baseUrl then some (baseUrl.drop 7)
  else none

def cutHost (rest : List Char) : List Char :=
  let host := (rest.takeWhile (· != '/')).takeWhile (· != ':')
  ((host.dropWhile (· == '[')).reverse.dropWhile (· == ']')).reverse

def blockedHosts : List String :=
  ["metadata.google.internal", "metadata.gcp.internal", "instance-data", "169.254.169.254", "metadata.azure.com",
    "instance-data.ec2.internal", "metadata.digitalocean.com", "100.100.100.200"]

variable (libs : HostLibs)

def isBlocked (host : List Char) : Bool :=
  blockedHosts.any fun blocked => decide (blocked.toList <:+: libs.lowercase host)

variable (resolve : List Char → List IpAddr)

-- `resolve` is what the resolver answers; a failure answers nothing.
def privateAnswer (host : List Char) : Option IpAddr :=
  if (libs.parseIp host).isNone && !host.isEmpty then (resolve host).find? isPrivateIp else none

def validateProviderUrl (baseUrl : List Char) : Except SwarmError Unit :=
  match afterScheme baseUrl with
  | none => .error (.validation "Provider base_url must use http or https scheme")
  | some rest =>
    let host := cutHost rest
    if (libs.parseIp host).any isPrivateIp then
      .error (.validation "Provider base_url must not point to private/internal IP ranges")
    else match privateAnswer libs resolve host with
      | some addr =>
        .error (.validation s!"Provider base_url hostname '{String.ofList host}' resolves to private IP {libs.printIp addr}")
      | none =>
        if isBlocked libs host then .error (.validation "Provider base_url points to blocked internal hostname")
        else .ok ()

-- What a URL parser reads as the host.
inductive UrlHost where
  | ip (addr : IpAddr)
  | name (text : List Char)

def UrlHost.Internal : UrlHost → Prop
  | .ip addr => isPrivateIp addr = true
  | .name text => ∃ addr ∈ resolve text, isPrivateIp addr = true

-- The text is refused whatever the resolver says, or the host is a public address, or the name looked up is the host's.
def Guarded (baseUrl : List Char) (host : UrlHost) : Prop :=
  ∀ rest, afterScheme baseUrl = some rest →
    (libs.parseIp (cutHost rest)).any isPrivateIp = true ∨ isBlocked libs (cutHost rest) = true ∨
      match host with
      | .ip addr => isPrivateIp addr = false
      | .name text => cutHost rest = text ∧ libs.parseIp text = none ∧ text ≠ []

-- A URL by its parts, as the generic grammar has them.
structure ProviderUrl where
  secure : Bool
  userinfo : Option (List Char)
  bracketed : Bool
  literal : List Char
  port : Option (List Char)
  tail : List Char
  named : literal ≠ []
  plainInfo : ∀ info ∈ userinfo, ∀ symbol ∈ info, symbol ∉ ['/', '?', '#']
  plainHost : ∀ symbol ∈ literal, symbol ∉ ['/', '?', '#', '@', '[', ']']
  colons : bracketed = true ↔ ':' ∈ literal
  digits : ∀ number ∈ port, number.all Char.isDigit = true
  ends : ∀ first ∈ tail.head?, first ∈ ['/', '?', '#']

namespace ProviderUrl

variable (url : ProviderUrl)

def authority : List Char :=
  (url.userinfo.elim [] fun info => info ++ ['@']) ++
    ((if url.bracketed then '[' :: (url.literal ++ [']']) else url.literal) ++ url.port.elim [] (':' :: ·))

def text : List Char := (if url.secure then "https://".toList else "http://".toList) ++ (url.authority ++ url.tail)

def host : UrlHost :=
  match libs.parseIp url.literal with
  | some addr => .ip addr
  | none => .name url.literal

-- Nobody is named, the host stands without brackets, and a port, a path or nothing follows it.
def Plain : Prop :=
  url.userinfo = none ∧ url.bracketed = false ∧ (url.port.isSome = true ∨ ∀ first ∈ url.tail.head?, first = '/')

end ProviderUrl

variable {libs}

theorem drop_while_absent {symbol : Char} {text : List Char} (absent : symbol ∉ text) : text.dropWhile (· == symbol) = text := by
  cases text with
  | nil => rfl
  | cons first rest =>
    have other : first ≠ symbol := fun same => absent (same ▸ List.mem_cons_self)
    simp [other]

theorem cut_host_append {literal after : List Char} (plain : ∀ symbol ∈ literal, symbol ∉ ['/', ':', '[', ']'])
    (stops : ∀ first ∈ after.head?, first = ':' ∨ first = '/') : cutHost (literal ++ after) = literal := by
  have slashes : ∀ symbol ∈ literal, (symbol != '/') = true := fun symbol inside => by
    have := plain symbol inside; simp_all
  have colons : ∀ symbol ∈ literal, (symbol != ':') = true := fun symbol inside => by
    have := plain symbol inside; simp_all
  have ended : (after.takeWhile (· != '/')).takeWhile (· != ':') = [] := by
    cases after with
    | nil => rfl
    | cons first rest => obtain rfl | rfl := stops first rfl <;> simp
  have opens : '[' ∉ literal := fun inside => by simpa using plain _ inside
  have closes : ']' ∉ literal := fun inside => by simpa using plain _ inside
  simp only [cutHost, List.takeWhile_append_of_pos slashes, List.takeWhile_append_of_pos colons, ended, List.append_nil,
    drop_while_absent opens]
  rw [drop_while_absent (by simpa using closes), List.reverse_reverse]

theorem colon_not_cut {rest : List Char} : ':' ∉ cutHost rest := by
  intro inside
  have trimmed := (List.dropWhile_sublist _).mem (List.mem_reverse.mp inside)
  have kept := (List.dropWhile_sublist _).mem (List.mem_reverse.mp trimmed)
  simpa using List.mem_takeWhile_imp kept

variable {url : ProviderUrl}

theorem after_scheme_text : afterScheme url.text = some (url.authority ++ url.tail) := by
  unfold ProviderUrl.text
  split <;> rfl

theorem plain_cut (plain : url.Plain) : cutHost (url.authority ++ url.tail) = url.literal := by
  obtain ⟨nobody, open_, follows⟩ := plain
  have colon : ':' ∉ url.literal := fun inside => by simpa [open_] using url.colons.mpr inside
  have parts : url.authority ++ url.tail = url.literal ++ (url.port.elim [] (':' :: ·) ++ url.tail) := by
    simp [ProviderUrl.authority, nobody, open_]
  rw [parts]
  refine cut_host_append (fun symbol inside => ?_) (fun first heads => ?_)
  · have host := url.plainHost symbol inside
    have other : symbol ≠ ':' := fun same => colon (same ▸ inside)
    simp_all
  · cases given : url.port with
    | none => exact .inr (follows.resolve_left (by simp [given]) first (by simpa [given] using heads))
    | some number => exact .inl (by simpa [given, eq_comm] using heads)

theorem plain_guarded (plain : url.Plain) : Guarded libs url.text (url.host libs) := by
  intro rest after
  obtain rfl := Option.some.inj (after_scheme_text.symm.trans after)
  rw [plain_cut plain]
  cases parsed : libs.parseIp url.literal with
  | none => exact .inr (.inr (by simp [ProviderUrl.host, parsed, url.named]))
  | some addr => cases inner : isPrivateIp addr <;> simp [ProviderUrl.host, parsed, inner]

variable {baseUrl : List Char}

theorem validate_ok_iff : validateProviderUrl libs resolve baseUrl = .ok () ↔ ∃ rest, afterScheme baseUrl = some rest ∧
      (libs.parseIp (cutHost rest)).any isPrivateIp = false ∧ isBlocked libs (cutHost rest) = false ∧
      privateAnswer libs resolve (cutHost rest) = none := by
  unfold validateProviderUrl
  cases afterScheme baseUrl with
  | none => simp
  | some rest =>
    simp only [Option.some.injEq, exists_eq_left']
    cases (libs.parseIp (cutHost rest)).any isPrivateIp <;> cases privateAnswer libs resolve (cutHost rest) <;>
      cases isBlocked libs (cutHost rest) <;> simp

theorem guarded_holds {host : UrlHost} (guarded : Guarded libs baseUrl host)
    (resolve : List Char → List IpAddr) (accepted : validateProviderUrl libs resolve baseUrl = .ok ()) :
    ¬ host.Internal resolve := by
  obtain ⟨rest, after, open_, unblocked, answers⟩ := (validate_ok_iff resolve).mp accepted
  have reads := guarded rest after
  simp only [open_, unblocked, Bool.false_eq_true, false_or] at reads
  cases host with
  | ip addr => simpa [UrlHost.Internal] using reads
  | name text =>
    obtain ⟨rfl, unparsed, named⟩ := reads
    simpa [UrlHost.Internal, privateAnswer, unparsed, named] using answers

def answersOnly (name : List Char) : List Char → List IpAddr := fun asked => if asked = name then [.v4 127 0 0 1] else []

theorem holds_guarded {host : UrlHost}
    (holds : ∀ resolve, validateProviderUrl libs resolve baseUrl = .ok () → ¬ host.Internal resolve) :
    Guarded libs baseUrl host := by
  intro rest after
  by_contra loose
  simp only [not_or, Bool.not_eq_true] at loose
  obtain ⟨open_, unblocked, misread⟩ := loose
  cases host with
  | ip addr =>
    refine holds (fun _ => []) ((validate_ok_iff _).mpr ⟨rest, after, open_, unblocked, by simp [privateAnswer]⟩) ?_
    simpa [UrlHost.Internal] using misread
  | name text =>
    refine holds (answersOnly text) ((validate_ok_iff _).mpr ⟨rest, after, open_, unblocked, ?_⟩) ?_
    · by_cases same : cutHost rest = text
      · subst same
        simpa [privateAnswer] using fun unparsed named => absurd ⟨rfl, unparsed, named⟩ misread
      · simp [privateAnswer, answersOnly, same]
    · exact ⟨.v4 127 0 0 1, by simp [answersOnly], rfl⟩

theorem internal_hosts_refused_iff (libs : HostLibs) :
    (∀ baseUrl host, (∀ resolve, validateProviderUrl libs resolve baseUrl = .ok () → ¬ host.Internal resolve) ↔
      Guarded libs baseUrl host) ∧
    ∀ url : ProviderUrl, (url.Plain → Guarded libs url.text (url.host libs)) ∧
      (url.bracketed = true → ∀ rest, afterScheme url.text = some rest → cutHost rest ≠ url.literal) := by
  refine ⟨fun _ _ => ⟨holds_guarded, guarded_holds⟩, fun url => ⟨plain_guarded, fun bracketed rest _ same => ?_⟩⟩
  exact colon_not_cut (same ▸ url.colons.mp bracketed)

def loopbackLibs : HostLibs where
  parseIp text := if text = "::1".toList then some (.v6 0 0 0 0 0 0 0 1) else none
  printIp _ := "::1"
  lowercase := id

def loopbackUrl : ProviderUrl where
  secure := false
  userinfo := none
  bracketed := true
  literal := "::1".toList
  port := none
  tail := ['/']
  named := by decide
  plainInfo := by simp
  plainHost := by simp
  colons := by decide
  digits := by simp
  ends := by simp

theorem loopback_url_accepted :
    String.ofList loopbackUrl.text = "http://[::1]/" ∧ (loopbackUrl.host loopbackLibs).Internal (fun _ => []) ∧
      validateProviderUrl loopbackLibs (fun _ => []) loopbackUrl.text = .ok () := by
  exact ⟨by decide, rfl, by decide⟩

end SwarmLlm.Api
