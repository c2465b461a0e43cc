import PrebidService.Cache.Item
import PrebidService.Cache.Ops
import PrebidService.Cache.Run
import PrebidService.SkanIdList.Client
import PrebidService.Go.Json
import PrebidService.Tracing.KeyValues
import PrebidService.Tracing.Context
import PrebidService.Tracing.Http
import PrebidService.Tracing.Server
import PrebidService.Adapters.Dv360.Requests
import PrebidService.Adapters.Dv360.Bids
import PrebidService.Monitoring.NewRelic
