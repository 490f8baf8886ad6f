import WindowTally.Fault

/-!
# Delivery settings

How many deliveries run at once, how many word counts may wait, and how often and
after what pause a failed delivery is tried again. The pause doubles with every
retry until it meets its limit (`backoff`).
-/
namespace WindowTally

/-- How word counts are delivered. Pauses are in milliseconds.
mirrors `config.EgressConfig` -/
structure DeliverySettings where
  maxRetries : UInt32 := 3
  baseBackoff : UInt64 := 100
  maxBackoff : UInt64 := 5000
  maxInFlight : UInt64 := 4
  bufferSize : UInt64 := 1024
  deriving DecidableEq, Repr

namespace DeliverySettings

/-- The first rule that the settings break, if any.
mirrors `config.EgressConfig.validate` -/
def check (s : DeliverySettings) : Except Fault Unit :=
  if s.maxInFlight = 0 then .error (.settings .nothingInFlight)
  else if s.bufferSize = 0 then .error (.settings .noBuffer)
  else if s.maxBackoff < s.baseBackoff then .error (.settings .backoffAboveLimit)
  else .ok ()

/-- The product, or the largest number if it is larger. -/
def mulSaturating (a b : UInt64) : UInt64 := UInt64.ofNat (min (a.toNat * b.toNat) 0xFFFFFFFFFFFFFFFF)

/-- The pause before retry number `retry`, counted from one: the base doubled for each earlier
retry, sixteen times at most, and no longer than the limit.
mirrors `config.EgressConfig.backoff` -/
def backoff (s : DeliverySettings) (retry : UInt32) : UInt64 :=
  min (mulSaturating s.baseBackoff (UInt64.ofNat (1 <<< min (retry.toNat - 1) 16))) s.maxBackoff

end DeliverySettings

end WindowTally
