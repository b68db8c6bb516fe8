import GoRuntime.SizeClass
import GoRuntime.Span
import GoRuntime.Central.Machine
import GoRuntime.Central.Slots
import GoRuntime.Central.Lists
import GoRuntime.Chan.Machine
import GoRuntime.Chan.Sync
import GoRuntime.Chan.Ring
import GoRuntime.Chan.FastPath
import GoRuntime.Arena
import GoRuntime.Iface.Scan
import GoRuntime.Iface.Itab
import GoRuntime.Tiny
import GoRuntime.Central.Zero
import GoRuntime.TinyZero
import GoRuntime.Locks
import GoRuntime.Central.Retry
import GoRuntime.DivMagic
import GoRuntime.Persistent
import GoRuntime.Large
import GoRuntime.Chan.Alloc
import GoRuntime.Chan.WaitQ
import GoRuntime.SizeLookup
import GoRuntime.Iface.Conv
import GoRuntime.Chan.Close
import GoRuntime.Chan.Blocking
import GoRuntime.Chan.Locks
import GoRuntime.Iface.Locks
import GoRuntime.Central.Locks
