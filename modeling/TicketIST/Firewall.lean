import TicketIST.Lib.Gate
import TicketIST.Lib.Strings

/-!
# The firewall

Before a connection gets a thread of its own, `TLSServer::run` asks `Firewall` twice: `isAllowed` looks
the address up in two sets, and `isRateLimited` compares the time with the one at which the address was
let through last, in whole seconds.  It writes the time down only for a connection that it lets through.

Together they are a gate (`Lib.Gate`): which addresses enter never changes, and a time that is too soon
after a connection is too soon after every later one.
-/

namespace TicketIST

open TicketIST.Lib

/-- Times are those of `steady_clock`, in nanoseconds. -/
structure Firewall where
  allowedIps : Finset Text
  blockedIps : Finset Text
  clientLastRequest : Text → Option ℤ
  rateLimitSeconds : ℤ

/-- `duration_cast<std::chrono::seconds>`, which rounds towards zero. -/
def wholeSeconds (nanoseconds : ℤ) : ℤ := nanoseconds.tdiv 1000000000

namespace Firewall

/-- A firewall that has seen no connection yet. -/
def opened (allowedIps blockedIps : Finset Text) (rateLimitSeconds : ℤ) : Firewall :=
  { allowedIps, blockedIps, clientLastRequest := fun _ => none, rateLimitSeconds }

variable (fw : Firewall)

def isAllowed (ip : Text) : Bool :=
  if ip ∈ fw.blockedIps then false
  else if fw.allowedIps ≠ ∅ ∧ ip ∉ fw.allowedIps then false
  else true

/-- `isRateLimited`, at the time `now`. -/
def isRateLimited (ip : Text) (now : ℤ) : Bool × Firewall :=
  let exceeded := match fw.clientLastRequest ip with
    | some lastRequest => decide (wholeSeconds (now - lastRequest) < fw.rateLimitSeconds)
    | none => false
  if exceeded then (true, fw)
  else (false, { fw with clientLastRequest := Function.update fw.clientLastRequest ip (some now) })

end Firewall

namespace TLSServer

/-- The firewall checks of `TLSServer::run`, on a connection from an address at a time: whether it goes
on to the handshake. -/
def firewallChecks (fw : Firewall) (connection : Text × ℤ) : Bool × Firewall :=
  if fw.isAllowed connection.1 then
    let (limited, fw) := fw.isRateLimited connection.1 connection.2
    (!limited, fw)
  else (false, fw)

/-- The loop of `TLSServer::run`: the connections, each with whether it was admitted. -/
def run (fw : Firewall) : List (Text × ℤ) → List ((Text × ℤ) × Bool)
  | [] => []
  | connection :: connections =>
    (connection, (firewallChecks fw connection).1) ::
      run (firewallChecks fw connection).2 connections

end TLSServer

/-! ### The firewall is a gate -/

namespace Firewall

/-- The gate that does not change: its sets and its limit. -/
def gate (fw : Firewall) : Gate Text ℤ where
  opens := fw.isAllowed
  tooSoon lastRequest now := decide (wholeSeconds (now - lastRequest) < fw.rateLimitSeconds)

variable {fw : Firewall} {last now : ℤ} {ip : Text}

theorem isAllowed_iff : fw.isAllowed ip = true ↔
    ip ∉ fw.blockedIps ∧ (fw.allowedIps ≠ ∅ → ip ∈ fw.allowedIps) := by
  unfold isAllowed
  split
  · next hb => simp [hb]
  · next hb => split <;> simp_all

theorem tooSoon_eq_false : fw.gate.tooSoon last now = false ↔
    fw.rateLimitSeconds ≤ wholeSeconds (now - last) := by
  simp [gate]

/-- What comes too soon after a connection comes too soon after every later one. -/
theorem tooSoon_of_le (t t' now : ℤ) (hle : t ≤ t') (h : fw.gate.tooSoon t now = true) :
    fw.gate.tooSoon t' now = true := by
  have hdiv : wholeSeconds (now - t') ≤ wholeSeconds (now - t) :=
    Int.tdiv_le_tdiv (by omega) (by omega)
  simp only [gate, decide_eq_true_eq] at h ⊢
  omega

/-- Whole seconds that have passed have passed. -/
theorem of_wholeSeconds {r : ℤ} (hle : last ≤ now) (h : r ≤ wholeSeconds (now - last)) :
    last + r * 1000000000 ≤ now := by
  rw [wholeSeconds, Int.tdiv_eq_ediv_of_nonneg (by omega)] at h
  omega

/-- One connection. -/
theorem firewallChecks_eq (fw : Firewall) (connection : Text × ℤ) :
    TLSServer.firewallChecks fw connection = (fw.gate.admits fw.clientLastRequest connection,
      { fw with clientLastRequest := fw.gate.after fw.clientLastRequest connection }) := by
  obtain ⟨ip, now⟩ := connection
  unfold TLSServer.firewallChecks isRateLimited Gate.after Gate.admits gate
  cases hip : fw.isAllowed ip with
  | false => simp [hip]
  | true =>
    cases hlast : fw.clientLastRequest ip with
    | none => simp [hip]
    | some last =>
      by_cases hsoon : wholeSeconds (now - last) < fw.rateLimitSeconds <;> simp [hip, hsoon]

/-- All of them. -/
theorem run_eq (fw : Firewall) (connections : List (Text × ℤ)) :
    TLSServer.run fw connections = fw.gate.decisions fw.clientLastRequest connections := by
  induction connections generalizing fw with
  | nil => rfl
  | cons connection connections ih =>
    rw [TLSServer.run, firewallChecks_eq, ih]
    rfl

/-- From the start. -/
theorem run_opened (allowedIps blockedIps : Finset Text) (r : ℤ) (connections : List (Text × ℤ)) :
    TLSServer.run (.opened allowedIps blockedIps r) connections =
      (opened allowedIps blockedIps r).gate.decisions (fun _ => none) connections := run_eq ..

/-! ### Admission -/

/-- The address is not blocked, is allowed if any is, and none of its connections that were admitted
before is less than the limit of whole seconds old. -/
def Admissible (fw : Firewall) (earlier : List ((Text × ℤ) × Bool)) (connection : Text × ℤ) : Prop :=
  connection.1 ∉ fw.blockedIps ∧ (fw.allowedIps ≠ ∅ → connection.1 ∈ fw.allowedIps) ∧
    ∀ last, ((connection.1, last), true) ∈ earlier →
      ¬wholeSeconds (connection.2 - last) < fw.rateLimitSeconds

end Firewall

section Admission

variable {allowedIps blockedIps : Finset Text} {r : ℤ} {connections : List (Text × ℤ)}

/-- One answer, and what it depends on. -/
theorem admitted_iff_admissible (htimes : (connections.map Prod.snd).Pairwise (· ≤ ·))
    {earlier later : List ((Text × ℤ) × Bool)} {connection : Text × ℤ} {admitted : Bool}
    (h : TLSServer.run (.opened allowedIps blockedIps r) connections =
      earlier ++ (connection, admitted) :: later) :
    admitted = true ↔
      (Firewall.opened allowedIps blockedIps r).Admissible earlier connection := by
  rw [Firewall.run_opened] at h
  obtain ⟨rfl, hearlier, rfl⟩ := Gate.of_decisions h
  rw [List.map_append, List.pairwise_append] at htimes
  have hadmits := Gate.admits_iff (g := (Firewall.opened allowedIps blockedIps r).gate)
    Firewall.tooSoon_of_le htimes.1 connection
  rw [hearlier] at hadmits
  refine hadmits.trans ?_
  rw [Firewall.Admissible, ← and_assoc]
  refine and_congr Firewall.isAllowed_iff (forall_congr' fun last => ?_)
  rw [Firewall.tooSoon_eq_false, not_lt]

/-- Admitted connections of one address are at least `r` seconds apart. -/
theorem admitted_apart (htimes : (connections.map Prod.snd).Pairwise (· ≤ ·)) :
    (TLSServer.run (.opened allowedIps blockedIps r) connections).Pairwise fun e e' =>
      e.2 = true → e'.2 = true → e.1.1 = e'.1.1 → e.1.2 + r * 1000000000 ≤ e'.1.2 := by
  rw [Firewall.run_opened]
  refine (Gate.decisions_apart Firewall.tooSoon_of_le htimes).imp fun hpair hd hd' hip => ?_
  obtain ⟨hle, hsoon⟩ := hpair hd hd' hip
  exact Firewall.of_wholeSeconds hle (Firewall.tooSoon_eq_false.1 hsoon)

/-- **Firewall admission.**  A connection is admitted exactly if it is admissible; then admitted
connections of one address are `r` seconds apart, and the answers are the same without the connections
that were refused, and without those of other addresses. -/
theorem firewall_admission (allowedIps blockedIps : Finset Text) (r : ℤ)
    (connections : List (Text × ℤ)) (htimes : (connections.map Prod.snd).Pairwise (· ≤ ·)) :
    (∀ earlier connection admitted later,
        TLSServer.run (.opened allowedIps blockedIps r) connections =
          earlier ++ (connection, admitted) :: later →
        (admitted = true ↔
          (Firewall.opened allowedIps blockedIps r).Admissible earlier connection)) ∧
      (TLSServer.run (.opened allowedIps blockedIps r) connections).Pairwise (fun e e' =>
        e.2 = true → e'.2 = true → e.1.1 = e'.1.1 → e.1.2 + r * 1000000000 ≤ e'.1.2) ∧
      (∀ p : (Text × ℤ) × Bool → Bool, (∀ connection, p (connection, true) = true) →
        TLSServer.run (.opened allowedIps blockedIps r)
            (((TLSServer.run (.opened allowedIps blockedIps r) connections).filter p).map Prod.fst) =
          (TLSServer.run (.opened allowedIps blockedIps r) connections).filter p) ∧
      ∀ ip, (TLSServer.run (.opened allowedIps blockedIps r) connections).filter (fun e => e.1.1 = ip) =
        TLSServer.run (.opened allowedIps blockedIps r) (connections.filter fun c => c.1 = ip) := by
  refine ⟨fun earlier connection admitted later h => admitted_iff_admissible htimes h,
    admitted_apart htimes, ?_, ?_⟩
  · intro p hp
    simp only [Firewall.run_opened]
    exact Gate.decisions_filter_admitted hp
  · intro ip
    simp only [Firewall.run_opened]
    exact Gate.decisions_filter_key rfl

end Admission

/-- With a limit of one second: another address gets in meanwhile, the second connection is too early,
and the third is not kept waiting for it. -/
theorem firewall_admission_home :
    TLSServer.run (.opened ∅ {['8']} 1)
        [(['1'], 0), (['2'], 5), (['1'], 999999999), (['8'], 999999999), (['1'], 1000000000)] =
      [((['1'], 0), true), ((['2'], 5), true), ((['1'], 999999999), false),
        ((['8'], 999999999), false), ((['1'], 1000000000), true)] ∧
    (Firewall.opened ∅ {['8']} 1).Admissible
      [((['1'], 0), true), ((['2'], 5), true), ((['1'], 999999999), false),
        ((['8'], 999999999), false)] (['1'], 1000000000) := by
  have hrun : TLSServer.run (.opened ∅ {['8']} 1)
      [(['1'], 0), (['2'], 5), (['1'], 999999999), (['8'], 999999999), (['1'], 1000000000)] =
      [((['1'], 0), true), ((['2'], 5), true), ((['1'], 999999999), false),
        ((['8'], 999999999), false), ((['1'], 1000000000), true)] := by decide +kernel
  have hadmission := firewall_admission ∅ {['8']} 1 _ (by decide : List.Pairwise (· ≤ ·)
    ([(['1'], 0), (['2'], 5), (['1'], 999999999), (['8'], 999999999), (['1'], 1000000000)].map
      (Prod.snd : Text × ℤ → ℤ)))
  exact ⟨hrun, (hadmission.1 [_, _, _, _] _ true [] hrun).1 rfl⟩

end TicketIST
