import ServiceLayer.Go.Basic
import ServiceLayer.Go.Float
import ServiceLayer.Gocassa.Pool
import ServiceLayer.Gocassa.Slots
import ServiceLayer.Gocassa.Exclusive
import ServiceLayer.Gocassa.Tracking
import ServiceLayer.Gocassa.Executor
import ServiceLayer.Gocassa.SwapSlots
import ServiceLayer.Gocassa.SwapExclusive
import ServiceLayer.Gocassa.SwapTracking
import ServiceLayer.Gocassa.Sequential
import ServiceLayer.Gocassa.Session
import ServiceLayer.Gocassa.Init
import ServiceLayer.Gocassa.Connector
import ServiceLayer.Auth.Cache
import ServiceLayer.Auth.Expiry
import ServiceLayer.Auth.Timed
import ServiceLayer.Elasticsearch.Config
