import Txei.Machine.Tidy
import Txei.Mei.Driver

/-!
# Connections

A connection is opened by `mei_connect` and closed by `mei_disconnect`. What goes on with a
connection is tidy if it disconnects (`tidy_meiConnect_bind`), since `mei_connect` closes the
descriptor itself when it returns no handle.
-/

namespace Txei.Mei

open Machine Machine.Prog

/-- What a call to the device does to the descriptors. -/
def descriptor : DeviceCall → Entry Int
  | .opened fd => .acquire fd
  | .closed fd => .release fd

variable {β ε α : Type}

/-- `mei_connect` and what goes on with the handle. -/
theorem tidy_meiConnect_bind {c : Connect} {k : Option Int → Prog DeviceCall β ε α}
    (hnone : Within Event.IsAccess (k none))
    (hsome : Releasing descriptor c.openFd (k (some c.openFd))) :
    Tidy descriptor (meiConnect c >>= k) := by
  intro m
  unfold meiConnect
  by_cases hcalloc : c.calloc = true
  · by_cases hopen : c.openFd = -1
    · simp only [hcalloc, hopen, if_true, run_bind, run_pure, Run.andThen_ok]
      exact tidy_of_access hnone m
    · by_cases hioctl : c.ioctl = 0
      · have hrest := hsome.tidy (d := .opened c.openFd) rfl m
        simpa [hcalloc, hopen, hioctl] using hrest
      · -- the descriptor is closed again
        have hquiet : ledger descriptor ((k none).run m).log = [] :=
          Within.ledger_eq_nil descriptor hnone m
        have hpair := tidyLedger_pair c.openFd
        simpa [hcalloc, hopen, hioctl, hquiet, descriptor] using hpair
  · simp only [hcalloc]
    exact tidy_of_access hnone m

theorem releasing_meiDisconnect_bind {fd : Int} {k : Unit → Prog DeviceCall β ε α}
    (hk : Within Event.IsAccess (k ())) : Releasing descriptor fd (meiDisconnect fd >>= k) :=
  releasing_call (f := descriptor) rfl hk

variable [DecidableEq β]

theorem access_meiSndRcv (x : Exchange) (fd : Int) (sndBuf rcvBuf : β) (n k : Nat) :
    Within Event.IsAccess (meiSndRcv x fd sndBuf n rcvBuf k : Prog _ β ε Int) :=
  within_meiSndRcv x fd sndBuf rcvBuf n k (by simp) (by simp)

end Txei.Mei
