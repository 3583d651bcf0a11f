import Warren.Security.IP

/-! `rejectPrivateIP`, `ValidateWebhookURL` and `ValidateHealthURL`. The standard-library
calls they make (`url.Parse`, `net.ParseIP`, `net.LookupIP`) are the fields of `Net`, so
every result holds for whichever parser and resolver the process runs with. The set of
addresses `rejectPrivateIP` refuses is computed exactly, as a list of CIDR blocks, and so is
the error it returns for each of them; the last entry of `privateRanges`, `169.254.0.0/16`
labelled `link-local`, is never reached, since `IsLinkLocalUnicast` refuses its addresses
first. -/

namespace Warren.Security

/-- A parsed URL as the validators read it: `u.Scheme` and `u.Hostname()`. -/
structure URL where
  scheme : List UInt8
  hostname : List UInt8
deriving DecidableEq, Repr

/-- The standard-library calls of the validators: `url.Parse`, `net.ParseIP` and
`net.LookupIP`, the first and last with the text of their error. -/
structure Net where
  parseURL : List UInt8 → Except (List UInt8) URL
  parseIP : List UInt8 → Option IP
  lookupIP : List UInt8 → Except (List UInt8) (List IP)

/-- An entry of `privateRanges`: the network `net.ParseCIDR` returns for the entry's CIDR
string, and its label. -/
structure PrivateRange where
  network : IPNet
  label : List UInt8

def privateRanges : List PrivateRange :=
  [⟨parseCIDR4 10 0 0 0 8, ascii "10.x.x.x"⟩,
    ⟨parseCIDR4 172 16 0 0 12, ascii "172.16-31.x.x"⟩,
    ⟨parseCIDR4 192 168 0 0 16, ascii "192.168.x.x"⟩,
    ⟨parseCIDR4 169 254 0 0 16, ascii "link-local"⟩]

inductive PrivateIPError
  /-- "loopback address %s not allowed" -/
  | loopback (ip : IP)
  /-- "link-local address %s not allowed" -/
  | linkLocal (ip : IP)
  /-- "private IP %s (%s) not allowed" -/
  | privateRange (ip : IP) (label : List UInt8)
deriving DecidableEq

def rejectPrivateIP (ip : IP) : Except PrivateIPError Unit :=
  if ip.isLoopback then .error (.loopback ip)
  else if ip.isLinkLocalUnicast || ip.isLinkLocalMulticast then .error (.linkLocal ip)
  else match privateRanges.find? (·.network.contains ip) with
    | some pr => .error (.privateRange ip pr.label)
    | none => .ok ()

inductive URLError
  /-- "malformed URL: %w" -/
  | malformed (err : List UInt8)
  /-- "scheme %q not allowed, must be http or https" -/
  | schemeNotAllowed (scheme : List UInt8)
  /-- "empty host" -/
  | emptyHost
  /-- The error of `rejectPrivateIP` for an address literal, returned as it is. -/
  | privateIP (err : PrivateIPError)
  /-- "host %q resolves to %s: %w" -/
  | resolvesTo (host : List UInt8) (ip : IP) (err : PrivateIPError)
deriving DecidableEq

/-- The checks `ValidateWebhookURL` and `ValidateHealthURL` share: the URL parses, its
scheme is `http` or `https`, and its host is not empty. -/
def parseHTTPURL (net : Net) (rawURL : List UInt8) : Except URLError URL :=
  match net.parseURL rawURL with
  | .error err => .error (.malformed err)
  | .ok u =>
    if u.scheme ≠ ascii "http" ∧ u.scheme ≠ ascii "https" then .error (.schemeNotAllowed u.scheme)
    else if u.hostname = [] then .error .emptyHost
    else .ok u

theorem privateRanges_contains (ip : IP) :
    ((parseCIDR4 10 0 0 0 8).contains ip ↔ (Cidr.v4 10 0 0 0 8).contains ip) ∧
    ((parseCIDR4 172 16 0 0 12).contains ip ↔ (Cidr.v4 172 16 0 0 12).contains ip) ∧
    ((parseCIDR4 192 168 0 0 16).contains ip ↔ (Cidr.v4 192 168 0 0 16).contains ip) ∧
    ((parseCIDR4 169 254 0 0 16).contains ip ↔ (Cidr.v4 169 254 0 0 16).contains ip) :=
  ⟨IPNet.contains_parseCIDR4 _ _ _ _ (by decide) ip, IPNet.contains_parseCIDR4 _ _ _ _ (by decide) ip,
    IPNet.contains_parseCIDR4 _ _ _ _ (by decide) ip, IPNet.contains_parseCIDR4 _ _ _ _ (by decide) ip⟩

theorem privateRanges_contains_iff (ip : IP) :
    (∃ pr ∈ privateRanges, pr.network.contains ip) ↔
      (Cidr.v4 10 0 0 0 8).contains ip ∨ (Cidr.v4 172 16 0 0 12).contains ip ∨
        (Cidr.v4 192 168 0 0 16).contains ip ∨ (Cidr.v4 169 254 0 0 16).contains ip := by
  obtain ⟨h10, h172, h192, h169⟩ := privateRanges_contains ip
  simp only [privateRanges, List.mem_cons, List.not_mem_nil, or_false, exists_eq_or_imp,
    exists_eq_left, h10, h172, h192, h169]

/-- The blocks `rejectPrivateIP` refuses: IPv4 loopback, link-local, link-local multicast
and the three RFC 1918 ranges; IPv6 `::1`, `fe80::/10` and `ff02::/16` under every value of
the flag bits. -/
def rejectedBlocks : List Cidr :=
  [Cidr.v4 127 0 0 0 8, Cidr.v4 169 254 0 0 16, Cidr.v4 224 0 0 0 24, Cidr.v4 10 0 0 0 8,
    Cidr.v4 172 16 0 0 12, Cidr.v4 192 168 0 0 16, ⟨1, 128⟩, ⟨0xfe80 * 2 ^ 112, 10⟩] ++
    (List.range 16).map fun f => ⟨(0xff02 + 0x10 * f) * 2 ^ 112, 16⟩

theorem rejectPrivateIP_eq_ok_iff_checks (ip : IP) :
    rejectPrivateIP ip = .ok () ↔ ¬ip.isLoopback ∧ ¬ip.isLinkLocalUnicast ∧
      ¬ip.isLinkLocalMulticast ∧ ¬∃ pr ∈ privateRanges, pr.network.contains ip := by
  unfold rejectPrivateIP
  split_ifs with h1 h2
  · simp [h1]
  · rcases Bool.or_eq_true _ _ ▸ h2 with h2 | h2 <;> simp [h2]
  · simp only [Bool.or_eq_true, not_or, Bool.not_eq_true] at h1 h2
    simp only [h1, h2, Bool.false_eq_true, not_false_eq_true, true_and]
    split
    next pr h =>
      have hp := List.find?_some h
      exact iff_of_false (by simp) fun hn => hn ⟨pr, List.mem_of_find?_eq_some h, hp⟩
    next h =>
      simp only [true_iff, not_exists, not_and, Bool.not_eq_true]
      exact fun pr hpr => by simpa using List.find?_eq_none.1 h pr hpr

theorem rejectPrivateIP_eq_ok_iff (ip : IP) :
    rejectPrivateIP ip = .ok () ↔ ∀ c ∈ rejectedBlocks, ¬c.contains ip := by
  rw [rejectPrivateIP_eq_ok_iff_checks, IP.isLoopback_iff, IP.isLinkLocalUnicast_iff,
    IP.isLinkLocalMulticast_iff, privateRanges_contains_iff]
  simp [rejectedBlocks]
  tauto

theorem rejectPrivateIP_eq_ok_iff_mapped (a b c d : UInt8) :
    rejectPrivateIP ⟨[a, b, c, d], .inl rfl⟩ = .ok () ↔
      rejectPrivateIP ⟨v4InV6Prefix ++ [a, b, c, d], .inr rfl⟩ = .ok () := by
  have hv : IP.value ⟨[a, b, c, d], .inl rfl⟩ = IP.value ⟨v4InV6Prefix ++ [a, b, c, d], .inr rfl⟩ :=
    (IP.value_of_length_four (by rfl)).trans (IP.value_of_length_sixteen _ _ (by rfl)).symm
  simp only [rejectPrivateIP_eq_ok_iff, Cidr.contains, hv]

theorem rejectPrivateIP_eq_error_iff (ip : IP) (e : PrivateIPError) :
    rejectPrivateIP ip = .error e ↔
      ip.isLoopback ∧ e = .loopback ip ∨
      ¬ip.isLoopback ∧ (ip.isLinkLocalUnicast ∨ ip.isLinkLocalMulticast) ∧ e = .linkLocal ip ∨
      ¬ip.isLoopback ∧ ¬(ip.isLinkLocalUnicast ∨ ip.isLinkLocalMulticast) ∧
        ((Cidr.v4 10 0 0 0 8).contains ip ∧ e = .privateRange ip (ascii "10.x.x.x") ∨
          (Cidr.v4 172 16 0 0 12).contains ip ∧ e = .privateRange ip (ascii "172.16-31.x.x") ∨
          (Cidr.v4 192 168 0 0 16).contains ip ∧ e = .privateRange ip (ascii "192.168.x.x")) := by
  unfold rejectPrivateIP
  split_ifs with h1 h2
  · simp only [h1, true_and, not_true_eq_false, false_and, or_false, Except.error.injEq]
    exact eq_comm
  · simp only [Bool.or_eq_true] at h2
    simp only [h1, h2, Bool.false_eq_true, not_false_eq_true, true_and, not_true_eq_false,
      false_and, or_false, false_or, Except.error.injEq]
    exact eq_comm
  · simp only [Bool.or_eq_true, not_or, Bool.not_eq_true] at h1 h2
    obtain ⟨h10, h172, h192, h169⟩ := privateRanges_contains ip
    have d10 : (Cidr.v4 10 0 0 0 8).contains ip →
        ¬(Cidr.v4 172 16 0 0 12).contains ip ∧ ¬(Cidr.v4 192 168 0 0 16).contains ip := by
      simp only [Cidr.contains, Cidr.v4]
      omega
    have d172 : (Cidr.v4 172 16 0 0 12).contains ip → ¬(Cidr.v4 192 168 0 0 16).contains ip := by
      simp only [Cidr.contains, Cidr.v4]
      omega
    simp only [h1, h2, Bool.false_eq_true, or_self, not_false_eq_true, true_and, false_and,
      false_or, privateRanges, List.find?_cons, List.find?_nil]
    -- the entries of `privateRanges` are tried in order, as the loop does
    cases b10 : (parseCIDR4 10 0 0 0 8).contains ip with
    | true => simp [h10.1 b10, d10 (h10.1 b10), eq_comm]
    | false =>
    have c10 : ¬(Cidr.v4 10 0 0 0 8).contains ip := mt h10.2 (by simp [b10])
    cases b172 : (parseCIDR4 172 16 0 0 12).contains ip with
    | true => simp [c10, h172.1 b172, d172 (h172.1 b172), eq_comm]
    | false =>
    have c172 : ¬(Cidr.v4 172 16 0 0 12).contains ip := mt h172.2 (by simp [b172])
    cases b192 : (parseCIDR4 192 168 0 0 16).contains ip with
    | true => simp [c10, c172, h192.1 b192, eq_comm]
    | false =>
    have c192 : ¬(Cidr.v4 192 168 0 0 16).contains ip := mt h192.2 (by simp [b192])
    cases b169 : (parseCIDR4 169 254 0 0 16).contains ip with
    | true => simpa [h2.1] using (IP.isLinkLocalUnicast_iff ip).2 (.inl (h169.1 b169))
    | false => simp [c10, c172, c192]

def validateWebhookURL (net : Net) (rawURL : List UInt8) : Except URLError Unit :=
  match parseHTTPURL net rawURL with
  | .error e => .error e
  | .ok u =>
    match net.parseIP u.hostname with
    | some ip => (rejectPrivateIP ip).mapError .privateIP
    | none =>
      match net.lookupIP u.hostname with
      | .error _ => .ok ()
      | .ok ips => ips.forM fun ip => (rejectPrivateIP ip).mapError (.resolvesTo u.hostname ip)

def validateHealthURL (net : Net) (rawURL : List UInt8) : Except URLError Unit :=
  match parseHTTPURL net rawURL with
  | .error e => .error e
  | .ok _ => .ok ()

/-- The blocks that reach the local host or a private network: `0.0.0.0/8`, `127.0.0.0/8`,
`10.0.0.0/8`, `172.16.0.0/12`, `192.168.0.0/16`, `169.254.0.0/16`, `::`, `::1`, `fe80::/10`
and `fc00::/7`. -/
def localOrPrivateBlocks : List Cidr :=
  [Cidr.v4 0 0 0 0 8, Cidr.v4 127 0 0 0 8, Cidr.v4 10 0 0 0 8, Cidr.v4 172 16 0 0 12,
    Cidr.v4 192 168 0 0 16, Cidr.v4 169 254 0 0 16, ⟨0, 128⟩, ⟨1, 128⟩, ⟨0xfe80 * 2 ^ 112, 10⟩,
    ⟨0xfc00 * 2 ^ 112, 7⟩]

theorem rejectPrivateIP_accepts_unspecified_and_unique_local :
    ((∃ c ∈ localOrPrivateBlocks, c.contains ⟨[0, 0, 0, 0], .inl rfl⟩) ∧
      rejectPrivateIP ⟨[0, 0, 0, 0], .inl rfl⟩ = .ok ()) ∧
    ((∃ c ∈ localOrPrivateBlocks,
        c.contains ⟨[0, 0, 0, 0, 0, 0, 0, 0, 0, 0, 0xff, 0xff, 0, 0, 0, 0], .inr rfl⟩) ∧
      rejectPrivateIP ⟨[0, 0, 0, 0, 0, 0, 0, 0, 0, 0, 0xff, 0xff, 0, 0, 0, 0], .inr rfl⟩ = .ok ()) ∧
    ((∃ c ∈ localOrPrivateBlocks,
        c.contains ⟨[0, 0, 0, 0, 0, 0, 0, 0, 0, 0, 0, 0, 0, 0, 0, 0], .inr rfl⟩) ∧
      rejectPrivateIP ⟨[0, 0, 0, 0, 0, 0, 0, 0, 0, 0, 0, 0, 0, 0, 0, 0], .inr rfl⟩ = .ok ()) ∧
    ((∃ c ∈ localOrPrivateBlocks,
        c.contains ⟨[0xfd, 0, 0, 0, 0, 0, 0, 0, 0, 0, 0, 0, 0, 0, 0, 1], .inr rfl⟩) ∧
      rejectPrivateIP ⟨[0xfd, 0, 0, 0, 0, 0, 0, 0, 0, 0, 0, 0, 0, 0, 0, 1], .inr rfl⟩ = .ok ()) :=
  ⟨⟨by decide, rfl⟩, ⟨by decide, rfl⟩, ⟨by decide, rfl⟩, ⟨by decide, rfl⟩⟩

theorem validateWebhookURL_accepts_unspecified_and_unique_local (net : Net) (rawURL : List UInt8)
    (u : URL) (ip : IP) (hu : parseHTTPURL net rawURL = .ok u)
    (hip : net.parseIP u.hostname = some ip)
    (h : ip.value = 0xffff * 2 ^ 32 ∨ ip.value = 0 ∨ ip.value = 0xfd00 * 2 ^ 112 + 1) :
    validateWebhookURL net rawURL = .ok () := by
  rw [validateWebhookURL, hu]
  dsimp only
  rw [hip, mapError_eq_ok_iff, rejectPrivateIP_eq_ok_iff]
  simp only [Cidr.contains]
  rcases h with h | h | h <;> rw [h] <;> decide

theorem validateWebhookURL_accepts_zero_host :
    validateWebhookURL ⟨fun _ => .ok ⟨ascii "http", ascii "0.0.0.0"⟩,
        fun _ => some ⟨[0, 0, 0, 0, 0, 0, 0, 0, 0, 0, 0xff, 0xff, 0, 0, 0, 0], .inr rfl⟩,
        fun _ => .error []⟩ (ascii "http://0.0.0.0/hook") = .ok () :=
  validateWebhookURL_accepts_unspecified_and_unique_local _ _ _ _ rfl rfl (.inl (by decide))

theorem parseHTTPURL_eq_ok_iff (net : Net) (rawURL : List UInt8) (u : URL) :
    parseHTTPURL net rawURL = .ok u ↔ net.parseURL rawURL = .ok u ∧
      (u.scheme = ascii "http" ∨ u.scheme = ascii "https") ∧ u.hostname ≠ [] := by
  unfold parseHTTPURL
  rcases net.parseURL rawURL with e | v
  · simp
  · dsimp only
    split_ifs with h1 h2
    · simp only [reduceCtorEq, false_iff, not_and, Except.ok.injEq]
      rintro rfl
      tauto
    · simp only [reduceCtorEq, false_iff, not_and, Except.ok.injEq]
      rintro rfl _
      exact absurd h2
    · simp only [Except.ok.injEq]
      constructor
      · rintro rfl
        exact ⟨rfl, by tauto, h2⟩
      · rintro ⟨rfl, -, -⟩
        rfl

/-- The addresses a host stands for: itself when it is an address literal, otherwise every
address of a successful resolver answer; a host that fails to resolve stands for none. -/
def Net.addresses (net : Net) (host : List UInt8) : List IP :=
  match net.parseIP host with
  | some ip => [ip]
  | none =>
    match net.lookupIP host with
    | .ok ips => ips
    | .error _ => []

theorem validateWebhookURL_eq_ok_iff (net : Net) (rawURL : List UInt8) :
    validateWebhookURL net rawURL = .ok () ↔ ∃ u, parseHTTPURL net rawURL = .ok u ∧
      ∀ ip ∈ net.addresses u.hostname, ∀ c ∈ rejectedBlocks, ¬c.contains ip := by
  unfold validateWebhookURL Net.addresses
  split
  · simp_all
  · next u hu =>
    simp only [hu, Except.ok.injEq, exists_eq_left']
    rcases net.parseIP u.hostname with _ | ip
    · rcases net.lookupIP u.hostname with e | ips
      · simp
      · simp [forM_eq_ok_iff, mapError_eq_ok_iff, rejectPrivateIP_eq_ok_iff]
    · simp [mapError_eq_ok_iff, rejectPrivateIP_eq_ok_iff]

theorem validateHealthURL_eq_ok_iff (net : Net) (rawURL : List UInt8) :
    validateHealthURL net rawURL = .ok () ↔ ∃ u, parseHTTPURL net rawURL = .ok u := by
  unfold validateHealthURL
  split <;> simp_all

end Warren.Security
