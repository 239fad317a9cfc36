import ChaiBeast.Routing.Methods
import ChaiBeast.Routing.Registration
import ChaiBeast.Routing.LiteralRoutes
import ChaiBeast.Routing.Soundness
import ChaiBeast.Routing.RoundTrip
import ChaiBeast.Routing.OpenTemplate
import ChaiBeast.Routing.PathParameters
import ChaiBeast.Routing.FiniteMap
import ChaiBeast.Routing.TemplateViews
import ChaiBeast.Dump.Containment
import ChaiBeast.Dump.Routes
import ChaiBeast.Dump.DumpServer
import ChaiBeast.Http.Base64FileBody
import ChaiBeast.Proxy.TempFiles
import ChaiBeast.Proxy.Transparency
import ChaiBeast.Proxy.ProxyServer
import ChaiBeast.Proxy.FileUrl
import ChaiBeast.Proxy.Config
import ChaiBeast.Proxy.LoadedTable
import ChaiBeast.Proxy.PathRouting
import ChaiBeast.Server.HandOver
import ChaiBeast.Server.AcceptLoop
import ChaiBeast.Server.HttpServer
import ChaiBeast.Server.ApiServer
import ChaiBeast.FileServer.Loop
import ChaiBeast.CommandLine
