import OpenRusty.Server.Init.Exec

/-!
This module contains what the parser of the flags accepts: the subnets of accepted parameters are texts
without white space that `iptables` can read, as far as they are subnets of IPv4.
-/

namespace OpenRusty

namespace Init

def isIpv4Subnet (cidr : String) : Bool :=
  match splitOnce '/' cidr with
  | some (addr, _) => (IpAddr.parse addr).any IpAddr.isIpv4
  | none => (IpAddr.parse cidr).any IpAddr.isIpv4

theorem parse_of_isIpv4 {s : String} (h : (IpAddr.parse s).any IpAddr.isIpv4 = true)
    : ∃ octets, IpAddr.parse s = some (.v4 octets) := by
  rcases hparse : IpAddr.parse s with _ | (octets | octets)
  . rw [hparse] at h
    cases h
  . exact ⟨octets, rfl⟩
  . rw [hparse] at h
    cases h

theorem space_notMem_of_parse {s : String} {octets : BitVec 32} (h : IpAddr.parse s = some (.v4 octets))
    : ' ' ∉ s.toList := by
  intro hmem
  rcases IpAddr.isIpv4Char_of_parse h ' ' hmem with hdigit | hdot
  . cases hdigit
  . cases hdot

theorem space_notMem_of_parseU32 {s : String} {n : UInt32} (h : parseU32 s = some n) : ' ' ∉ s.toList := by
  intro hmem
  rcases Option.map_eq_some_iff.mp h with ⟨m, hm, -⟩
  rcases digit_or_plus_of_parseUnsigned hm ' ' hmem with hdigit | hplus
  . cases hdigit
  . cases hplus

theorem parse_of_parseSubnet {cidr : String} (hok : parseSubnet cidr = .ok cidr)
    (h : isIpv4Subnet cidr = true)
    : (∃ net, Subnet.parse cidr = some net) ∧ ' ' ∉ cidr.toList := by
  unfold isIpv4Subnet at h
  unfold parseSubnet at hok
  unfold Subnet.parse
  cases hsplit : splitOnce '/' cidr with
  | none =>
    rw [hsplit] at h
    rcases parse_of_isIpv4 h with ⟨octets, hparse⟩
    dsimp only
    rw [hparse]
    exact ⟨⟨_, rfl⟩, space_notMem_of_parse hparse⟩
  | some parts =>
    rcases parts with ⟨addr, mask⟩
    rw [hsplit] at h hok
    dsimp only at h hok ⊢
    rcases parse_of_isIpv4 h with ⟨octets, hparse⟩
    rw [hparse] at hok ⊢
    cases hmask : parseU32 mask with
    | none =>
      rw [hmask] at hok
      cases hok
    | some m =>
      rw [hmask] at hok
      dsimp only at hok ⊢
      split at hok
      . next hle =>
        refine ⟨⟨_, if_pos hle⟩, ?_⟩
        rw [append_of_splitOnce hsplit, List.mem_append, List.mem_cons]
        rintro (haddr | hslash | hm)
        . exact space_notMem_of_parse hparse haddr
        . cases hslash
        . exact space_notMem_of_parseU32 hmask hm
      . cases hok

theorem eq_of_parseSubnet {cidr cidr' : String} (h : parseSubnet cidr = .ok cidr') : cidr' = cidr := by
  unfold parseSubnet at h
  split at h
  . split at h
    . cases h
    . split at h
      . split at h
        . cases h
          rfl
        . cases h
      . cases h
  . split at h
    . cases h
      rfl
    . cases h

theorem parseSubnet_of_parseSubnets {s : String} {subnets : List String} (h : parseSubnets s = .ok subnets)
    : ∀ cidr ∈ subnets, parseSubnet cidr = .ok cidr := by
  intro cidr hcidr
  rcases (Except.mem_of_mapM h).mp hcidr with ⟨cidr', -, hok⟩
  cases eq_of_parseSubnet hok
  exact hok

theorem valueFlag_subnets {flag value : String} {set : String → ParsedArgs → Except String ParsedArgs}
    (hflag : valueFlag flag = some set) {a b : ParsedArgs} (h : set value a = .ok b)
    (ha : ∀ cidr ∈ a.1.skipSubnets, parseSubnet cidr = .ok cidr)
    : ∀ cidr ∈ b.1.skipSubnets, parseSubnet cidr = .ok cidr := by
  unfold valueFlag at hflag
  split at hflag
  all_goals cases hflag
  all_goals rcases Except.map_eq_ok.mp h with ⟨x, hx, rfl⟩
  . exact ha
  . exact ha
  . exact ha
  . exact ha
  . exact ha
  . exact parseSubnet_of_parseSubnets hx
  . exact ha

theorem parseArgsFrom_subnets {argv : List String} {a b : ParsedArgs} (h : parseArgsFrom argv a = .ok b)
    (ha : ∀ cidr ∈ a.1.skipSubnets, parseSubnet cidr = .ok cidr)
    : ∀ cidr ∈ b.1.skipSubnets, parseSubnet cidr = .ok cidr := by
  fun_induction parseArgsFrom argv a with
  | case1 a =>
    cases h
    exact ha
  | case2 a arg argv flag set hset value a' hvalue hflag ih =>
    exact ih h (valueFlag_subnets hset hvalue ha)
  | case3 => cases h
  | case4 a arg flag set hset value argv a' hvalue hflag ih =>
    exact ih h (valueFlag_subnets hset hvalue ha)
  | case5 => cases h
  | case6 => cases h
  | case7 a arg argv flag inline hflag hset hdry ih => exact ih h ha
  | case8 => cases h

theorem parseArgs_subnets {argv : List String} {p : InitParams} (h : parseArgs argv = .ok p)
    : ∀ cidr ∈ p.skipSubnets, parseSubnet cidr = .ok cidr := by
  unfold parseArgs at h
  split at h
  . next p' uid hfrom =>
    cases h
    exact parseArgsFrom_subnets hfrom (by simp)
  . cases h
  . cases h

end Init

end OpenRusty
