import SharedUtility.Bytes

/-!
# Xio — the results an io reports (`xio.h`)
-/

namespace SharedUtility

inductive IoOpenResult
  | ioOpenOk
  | ioOpenError
  | ioOpenCancelled
  deriving DecidableEq, Repr

structure IoOpenResultDetailed where
  result : IoOpenResult
  code : Int := 0
  deriving DecidableEq, Repr

inductive IoSendResult
  | ioSendOk
  | ioSendError
  | ioSendCancelled
  deriving DecidableEq, Repr

end SharedUtility
