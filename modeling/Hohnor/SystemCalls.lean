/-!
# Answers of the kernel

The system calls that the library makes are not modelled; what they may
answer is.  Every operation that makes a call takes the answer as an argument,
so a statement about all answers is a statement about every kernel.
-/

namespace Hohnor

/-- One char of a stream. -/
abbrev Byte := UInt8

/-- A finite sequence of bytes: a message, a stream, a block of storage. -/
abbrev Bytes := List Byte

/-- The error numbers that the source names; EWOULDBLOCK is EAGAIN on Linux. -/
inductive Errno where
  | EAGAIN | ECONNABORTED | EINTR | EPROTO | EPERM | EMFILE
  | EBADF | EFAULT | EINVAL | ENFILE | ENOBUFS | ENOMEM | ENOTSOCK
  | EOPNOTSUPP | EPIPE | ECONNRESET | EISCONN | EINPROGRESS
  | EADDRINUSE | EADDRNOTAVAIL | ECONNREFUSED | ENETUNREACH
  | other (code : Nat)
deriving DecidableEq, Repr

/-- What `::write` does with the bytes it is offered: it takes the first `n`
of them, or all when there are no more than `n`, or it fails. -/
inductive WriteResult where
  | takes (n : Nat)
  | fails (e : Errno)
deriving DecidableEq, Repr

/-- The return value of `::write` for the bytes offered. -/
def WriteResult.returns
    (r : WriteResult) (offered : Bytes) : Except Errno Nat :=
  match r with
  | .takes n => .ok (min n offered.length)
  | .fails e => .error e

/-- What `::readv` answers: an error number, or the bytes it delivers. -/
inductive ReadResult where
  | fails (savedErrno : Errno)
  | delivers (data : Bytes)
deriving DecidableEq, Repr

end Hohnor
