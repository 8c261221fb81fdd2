import Mathlib.Data.Int.Notation

/-! The descriptors that an `fd_set` has a bit for. -/
namespace ProtocolTests.Library.FdSet

def FD_SETSIZE : Int := 1024

/-- `FD_SET` and `FD_ISSET` are undefined for all other descriptors. -/
def Settable (sd : Int) : Prop := 0 ≤ sd ∧ sd < FD_SETSIZE

instance (sd : Int) : Decidable (Settable sd) := inferInstanceAs (Decidable (_ ∧ _))

end ProtocolTests.Library.FdSet
