import Dotdns.Lib.IpText
import Dotdns.Validate

/-!
# Config — hosts of DoT upstreams

A DoT upstream is verified by its hostname, so `Config::validate` rejects
an address whose host parses as an IP address. The host is what
`host_from_address` cuts out: the text between brackets, or the text
before the last colon. An IPv6 literal without brackets has colons of its
own, and is cut in the middle.
-/

namespace Dotdns

open Lib

/-! ## What is cut out -/

theorem beforeLastColon_append {host rest : Str} (h : ':' ∉ rest) :
    beforeLastColon (host ++ ':' :: rest) = some host := by
  have hdrop : (host ++ ':' :: rest).rdropWhile (· != ':') = host ++ [':'] := by
    rw [List.rdropWhile, List.reverse_append, List.reverse_cons, List.append_assoc,
      List.dropWhile_append_of_pos]
    · simp
    · intro c hc
      simp only [bne_iff_ne, ne_eq]
      rintro rfl
      exact h (List.mem_reverse.mp hc)
  rw [beforeLastColon, if_pos (by simp), hdrop]
  simp

theorem hostFromAddress_of_colon {host rest : Str} (hbracket : (host ++ [':']).head? ≠ some '[')
    (h : ':' ∉ rest) : hostFromAddress (host ++ ':' :: rest) = host := by
  unfold hostFromAddress
  split
  · rename_i r heq
    cases host with
    | nil => cases heq
    | cons c host => exact absurd (congrArg some (List.cons.inj heq).1) hbracket
  · rw [beforeLastColon_append h]
    rfl

theorem hostFromAddress_of_no_colon {host : Str} (hbracket : host.head? ≠ some '[')
    (h : ':' ∉ host) : hostFromAddress host = host := by
  unfold hostFromAddress
  split
  · exact absurd rfl hbracket
  · rw [beforeLastColon, if_neg h]
    rfl

theorem hostFromAddress_bracketed {host rest : Str} (h : ']' ∉ host) :
    hostFromAddress ('[' :: (host ++ ']' :: rest)) = host := by
  have htake : (host ++ ']' :: rest).takeWhile (· != ']') = host := by
    rw [List.takeWhile_append_of_pos]
    · simp
    · intro c hc
      simp only [bne_iff_ne, ne_eq]
      rintro rfl
      exact h hc
  simp [hostFromAddress, htake]

/-! ## The forms of a literal -/

/-- A port: its digits. -/
def PortText (p : Str) : Prop := p ≠ [] ∧ ∀ c ∈ p, c.isDigit = true

theorem PortText.no_colon {p : Str} (h : PortText p) : ':' ∉ p := by
  intro hc
  have hdigit := h.2 ':' hc
  revert hdigit
  decide

/-- The ways to write the literal `a` as the address of an upstream, with
and without a port. -/
inductive LiteralForm (a : Str) : Str → Prop
  | bare : LiteralForm a a
  | withPort {p : Str} : isIpv4Literal a = true → PortText p → LiteralForm a (a ++ ':' :: p)
  | bracketed : LiteralForm a ('[' :: (a ++ [']']))
  | bracketedPort {p : Str} : PortText p → LiteralForm a ('[' :: (a ++ ']' :: ':' :: p))

/-- A text made of what hostnames are made of. -/
def HostnameText (h : Str) : Prop :=
  h ≠ [] ∧ ∀ c ∈ h, c.isAlphanum = true ∨ c = '-' ∨ c = '_' ∨ c = '.'

theorem HostnameText.no_colon {h : Str} (hh : HostnameText h) : ':' ∉ h := by
  intro hc
  have hchar := hh.2 ':' hc
  revert hchar
  decide

theorem HostnameText.no_bracket {h : Str} (hh : HostnameText h) : h.head? ≠ some '[' := by
  intro hhead
  have hchar := hh.2 '[' (List.mem_of_head? hhead)
  revert hchar
  decide

/-- Only an empty text has its first character from what follows it. -/
theorem head?_append_colon {s t : Str} :
    (s ++ ':' :: t).head? = some '[' ↔ s.head? = some '[' := by
  cases s <;> simp

theorem head?_literal_ne {a : Str} (ha : isIpLiteral a = true) : a.head? ≠ some '[' := by
  intro hhead
  exact not_literalChar_brackets.1 (isIpLiteral_char ha (List.mem_of_head? hhead))

theorem closing_not_mem_literal {a : Str} (ha : isIpLiteral a = true) : ']' ∉ a := by
  intro hc
  exact not_literalChar_brackets.2 (isIpLiteral_char ha hc)

theorem colon_not_mem_ipv4 {a : Str} (ha : isIpv4Literal a = true) : ':' ∉ a := by
  intro hc
  rw [isIpv4Literal_of_colon hc] at ha
  cases ha

/-- Every form but the bare IPv6 literal gives back the literal. -/
theorem hostFromAddress_form {a form : Str} (ha : isIpLiteral a = true)
    (hform : LiteralForm a form) (hbare : form = a → isIpv4Literal a = true) :
    hostFromAddress form = a := by
  cases hform with
  | bare =>
      exact hostFromAddress_of_no_colon (head?_literal_ne ha) (colon_not_mem_ipv4 (hbare rfl))
  | @withPort p hv4 hp =>
      apply hostFromAddress_of_colon _ hp.no_colon
      rw [Ne, head?_append_colon]
      exact head?_literal_ne ha
  | bracketed => exact hostFromAddress_bracketed (closing_not_mem_literal ha)
  | bracketedPort hp => exact hostFromAddress_bracketed (closing_not_mem_literal ha)

/-- The bare IPv6 literal is cut at its last colon. -/
theorem hostFromAddress_ipv6 {a : Str} (ha : isIpv6Literal a = true) :
    isIpLiteral (hostFromAddress a) = true ↔ ElidesEarly a := by
  obtain ⟨b, last, rfl, hlast⟩ := exists_last_split (colon_mem_of_ipv6 ha)
  have hlit : isIpLiteral (b ++ ':' :: last) = true := by simp [isIpLiteral, ha]
  have hhead : (b ++ [':']).head? ≠ some '[' := by
    have hhead := head?_literal_ne hlit
    rw [Ne, head?_append_colon] at hhead ⊢
    exact hhead
  rw [hostFromAddress_of_colon hhead hlast]
  exact isIpLiteral_cut_iff hlast ha

/-! ## Rejected for its host -/

namespace Config

/-- The error for a DoT upstream whose host is an address, entry `i`. -/
def hostError (i : Nat) : ConfigError :=
  .invalidValue (indexedField "upstreams" i ".address")
    "DoT upstream needs a hostname, not an IP".toList

/-- The text of `hostError` is that of no other check. -/
def isHostError : ConfigError → Bool
  | .invalidValue _ message => message == "DoT upstream needs a hostname, not an IP".toList
  | _ => false

theorem ne_hostError {e : ConfigError} (h : isHostError e = false) (i : Nat) : e ≠ hostError i := by
  rintro rfl
  cases h

theorem indexedField_inj {list rest : String} {i j : Nat}
    (h : indexedField list i rest = indexedField list j rest) : i = j := by
  have hcons := List.cons.inj (List.append_cancel_left h)
  have hdigits := List.append_cancel_right hcons.2
  have hnat := congrArg (fun s => Nat.ofDigitChars 10 s 0) hdigits
  simpa [Nat.ofDigitChars_ten_toDigits] using hnat

theorem validateUpstream_eq_hostError {isIp : Str → Bool} {i j : Nat} {u : UpstreamEntry}
    (h : validateUpstream isIp j u = .error (hostError i)) :
    j = i ∧ isIp (hostFromAddress u.address) = true := by
  simp only [validateUpstream, seq_eq_error, reject_eq_error] at h
  rcases h with ⟨_, he⟩ | ⟨_, ⟨_, he⟩ | ⟨_, hbad, he⟩⟩
  · exact absurd he (ne_hostError (by rfl) i)
  · exact absurd he (ne_hostError (by rfl) i)
  · rw [Bool.and_eq_true] at hbad
    injection he with hfield
    exact ⟨indexedField_inj hfield, hbad.2⟩

theorem reject_ne_hostError {bad : Bool} {e : ConfigError} (he : isHostError e = false) (i : Nat) :
    reject bad e ≠ .error (hostError i) := by
  intro h
  exact ne_hostError he i (reject_eq_error.mp h).2

theorem rejectEach_ne_hostError {α : Type} {f : Nat → α → Except ConfigError Unit} {i : Nat}
    (hf : ∀ j x, f j x ≠ .error (hostError i)) (xs : List α) :
    rejectEach f 0 xs ≠ .error (hostError i) := by
  intro h
  obtain ⟨j, x, _, hx⟩ := exists_of_rejectEach_error h
  exact hf _ x hx

theorem validateDoh_ne_hostError (certPath : Option Path) (doh : Option (List SocketAddr))
    (i : Nat) : validateDoh certPath doh ≠ .error (hostError i) := by
  cases doh with
  | none => simp [validateDoh]
  | some binds =>
      exact seq_ne_error (reject_ne_hostError rfl i) (reject_ne_hostError rfl i)

theorem validateManagement_ne_hostError (t : ManagementTransport) (i : Nat) :
    validateManagement t ≠ .error (hostError i) := by
  cases t with
  | unix path => simp [validateManagement]
  | tcp bind => exact reject_ne_hostError rfl i

/-- A configuration rejected for the host of entry `i` has such an entry:
the loop over the upstreams is the only check with this error. -/
theorem validate_eq_hostError {isIp : Str → Bool} {pathExists : Path → Bool} {c : Config} {i : Nat}
    (h : c.validate isIp pathExists = .error (hostError i)) :
    ∃ u, c.upstreams[i]? = some u ∧ isIp (hostFromAddress u.address) = true := by
  rw [validate] at h
  rcases seq_eq_error.mp h with h | ⟨_, h⟩
  · exact absurd h (reject_ne_hostError rfl i)
  rcases seq_eq_error.mp h with h | ⟨_, h⟩
  · exact absurd h (reject_ne_hostError rfl i)
  rcases seq_eq_error.mp h with h | ⟨_, h⟩
  · obtain ⟨j, u, hget, hu⟩ := exists_of_rejectEach_error h
    obtain ⟨hj, hip⟩ := validateUpstream_eq_hostError hu
    rw [Nat.zero_add] at hj
    exact ⟨u, hj ▸ hget, hip⟩
  · refine absurd h (seq_ne_error ?_ (seq_ne_error ?_ (seq_ne_error ?_ (seq_ne_error ?_
      (seq_ne_error ?_ (seq_ne_error ?_ (seq_ne_error ?_ (seq_ne_error ?_ (seq_ne_error ?_
      (seq_ne_error ?_ (seq_ne_error ?_ (seq_ne_error ?_ ?_))))))))))))
    · exact rejectEach_ne_hostError (fun _ _ => reject_ne_hostError rfl i) _
    · exact reject_ne_hostError rfl i
    · exact validateDoh_ne_hostError _ _ i
    · exact validateManagement_ne_hostError _ i
    · exact rejectEach_ne_hostError (fun _ _ => reject_ne_hostError rfl i) _
    · exact rejectEach_ne_hostError (fun _ _ => reject_ne_hostError rfl i) _
    · exact rejectEach_ne_hostError (fun _ _ => reject_ne_hostError rfl i) _
    · exact rejectEach_ne_hostError (fun _ _ => reject_ne_hostError rfl i) _
    · exact reject_ne_hostError rfl i
    · exact reject_ne_hostError rfl i
    · exact reject_ne_hostError rfl i
    · exact reject_ne_hostError rfl i
    · exact reject_ne_hostError rfl i

/-- An entry with an address for its host is rejected. -/
theorem validate_ne_ok {isIp : Str → Bool} {pathExists : Path → Bool} {c : Config}
    {u : UpstreamEntry} (hu : u ∈ c.upstreams) (htls : u.protocol = .tls)
    (hip : isIp (hostFromAddress u.address) = true) : c.validate isIp pathExists ≠ .ok () := by
  intro h
  have hhost := ((validate_eq_ok.mp h).upstream u hu).host htls
  rw [hip] at hhost
  cases hhost

/-- A configuration with one DoT upstream and defaults for the rest. -/
def oneDotUpstream (address : Str) : Config :=
  { serverBinds := [⟨.v4 0#32, 853⟩]
    upstreams := [{ name := "dot".toList, address, protocol := .tls }] }

theorem validate_oneDotUpstream {isIp : Str → Bool} (pathExists : Path → Bool) {address : Str}
    (hne : address ≠ []) (hip : isIp (hostFromAddress address) = false) :
    (oneDotUpstream address).validate isIp pathExists = .ok () := by
  apply validate_eq_ok.mpr
  exact
    { upstreams := by simp [oneDotUpstream]
      serverBinds := by simp [oneDotUpstream]
      upstream := by
        intro u hu
        obtain rfl := List.mem_singleton.mp hu
        exact ⟨hne, (by decide : Duration.fromSecs 5 ≠ 0), fun _ => hip⟩
      bootstrap := by simp [oneDotUpstream]
      tls := rfl
      doh := by simp [oneDotUpstream]
      management := by simp [oneDotUpstream]
      paths := by simp [oneDotUpstream]
      allowlistPaths := by simp [oneDotUpstream]
      urls := by simp [oneDotUpstream]
      allowlistUrls := by simp [oneDotUpstream]
      refreshInterval := by simp [oneDotUpstream]
      downloadTimeout := (by decide : Duration.fromSecs 30 ≠ 0)
      blockedTtl := (by decide : Duration.fromSecs 300 ≠ 0)
      ipv4Prefix := (by decide : (24 : UInt8).toNat ≤ 32)
      ipv6Prefix := (by decide : (56 : UInt8).toNat ≤ 128) }

end Config

/-- **Literals and hostnames of DoT upstreams.** For every address literal
and every form of it: every configuration with a DoT upstream at that
address is rejected, exactly when the form has brackets or a port, or the
literal is IPv4, or it is IPv6 with a `::` before its last colon. And no
hostname, with a port or without, is rejected on this ground. -/
theorem dot_literal_rejected_iff (pathExists : Path → Bool) :
    (∀ a form, isIpLiteral a = true → LiteralForm a form →
      ((∀ (c : Config) (u : UpstreamEntry), u ∈ c.upstreams → u.protocol = .tls →
          u.address = form → c.validate isIpLiteral pathExists ≠ .ok ()) ↔
        (form = a → isIpv4Literal a = true ∨ ElidesEarly a))) ∧
    ∀ h form, HostnameText h → isIpLiteral h = false →
      (form = h ∨ ∃ p, PortText p ∧ form = h ++ ':' :: p) →
      ∀ (c : Config) (i : Nat) (u : UpstreamEntry), c.upstreams[i]? = some u → u.address = form →
        c.validate isIpLiteral pathExists ≠ .error (Config.hostError i) := by
  constructor
  · intro a form ha hform
    constructor
    · intro hrej heq
      subst heq
      by_contra hno
      rw [not_or] at hno
      have hv6 : isIpv6Literal form = true := by simpa [isIpLiteral, hno.1] using ha
      -- what is left of it before its last colon is no literal
      have hhost : isIpLiteral (hostFromAddress form) = false := by
        rw [Bool.eq_false_iff]
        exact fun hip => hno.2 ((hostFromAddress_ipv6 hv6).mp hip)
      exact hrej (.oneDotUpstream form) _ List.mem_cons_self rfl rfl
        (Config.validate_oneDotUpstream pathExists (List.ne_nil_of_mem (colon_mem_of_ipv6 hv6))
          hhost)
    · intro hcond c u hu htls haddr
      apply Config.validate_ne_ok hu htls
      rw [haddr]
      by_cases hearly : form = a ∧ isIpv4Literal a = false
      · obtain ⟨rfl, hv4⟩ := hearly
        have hv6 : isIpv6Literal form = true := by simpa [isIpLiteral, hv4] using ha
        apply (hostFromAddress_ipv6 hv6).mpr
        exact (hcond rfl).resolve_left (by simp [hv4])
      · rw [hostFromAddress_form ha hform]
        · exact ha
        · intro hform
          simpa [hform] using hearly
  -- a hostname is all that the cut leaves of its forms
  · intro h form hhost hip hform c i u hget haddr herr
    obtain ⟨u', hget', hip'⟩ := Config.validate_eq_hostError herr
    obtain rfl := Option.some.inj (hget'.symm.trans hget)
    have hcut : hostFromAddress u'.address = h := by
      rw [haddr]
      rcases hform with rfl | ⟨p, hp, rfl⟩
      · exact hostFromAddress_of_no_colon hhost.no_bracket hhost.no_colon
      · apply hostFromAddress_of_colon _ hp.no_colon
        rw [Ne, head?_append_colon]
        exact hhost.no_bracket
    rw [hcut, hip] at hip'
    cases hip'

/-- `2001:db8::1` without brackets is accepted as the address of a DoT
upstream: its host comes out as `2001:db8:`. -/
theorem ipv6_literal_accepted :
    let a := "2001:db8::1".toList
    isIpLiteral a = true ∧ LiteralForm a a ∧ hostFromAddress a = "2001:db8:".toList ∧
      (Config.oneDotUpstream a).validate isIpLiteral (fun _ => false) = .ok () := by
  intro a
  exact ⟨by decide +kernel, .bare, by decide +kernel, by decide +kernel⟩

end Dotdns
