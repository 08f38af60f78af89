import Mathlib.Init

/-!
# The bindings of rmw

What the C interface hands to the functions of rmw: durations, profiles and the numbers of the
policies.
-/

namespace RosZ.Rmw

structure RmwTime where
  sec : UInt64
  nsec : UInt64
deriving DecidableEq, Repr

/-- The fields of `rmw_qos_profile_t` that the check reads. -/
structure RmwQosProfile where
  reliability : UInt32
  durability : UInt32
  deadline : RmwTime
  liveliness : UInt32
  livelinessLeaseDuration : RmwTime
deriving DecidableEq, Repr

def reliabilityReliable : UInt32 := 1
def reliabilityBestEffort : UInt32 := 2
def durabilityTransientLocal : UInt32 := 1
def durabilityVolatile : UInt32 := 2

def policyDurability : UInt32 := 2
def policyDeadline : UInt32 := 4
def policyLiveliness : UInt32 := 8
def policyReliability : UInt32 := 16

end RosZ.Rmw
