import OracleThin.Arrow.Agree
import OracleThin.Arrow.Dates
import OracleThin.Arrow.Exact
import OracleThin.Bind.BfileName
import OracleThin.Bind.Consistent
import OracleThin.Bind.ObjectImage
import OracleThin.Classic.Flush
import OracleThin.ConnectString.Target
import OracleThin.Cursor.Ownership
import OracleThin.Cursor.Rows
import OracleThin.Cursor.ShapeCache
import OracleThin.Cursor.Shapes
import OracleThin.Image.OsonNodes
import OracleThin.Image.OsonRoundTrip
import OracleThin.Load.Batches
import OracleThin.Pool.Acquirers
import OracleThin.Pool.Capacity
import OracleThin.Pool.Classes
import OracleThin.Pool.LifecycleWaiters
import OracleThin.Pool.Queued
import OracleThin.Session.Handles
import OracleThin.Session.Stranding
import OracleThin.Soda.Tokens
import OracleThin.Soda.Where
import OracleThin.Ttc.Rowids
