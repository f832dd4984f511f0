import BlackboxExporter.Go.Strings
import BlackboxExporter.Go.Net
import BlackboxExporter.Config
import BlackboxExporter.Http.Request
import BlackboxExporter.Http.Probe
import BlackboxExporter.Dns.Probe
import BlackboxExporter.Icmp.Sequence
import BlackboxExporter.Icmp.Mutex
import BlackboxExporter.Target
import BlackboxExporter.Icmp.Probe
import BlackboxExporter.Icmp.Checksum
